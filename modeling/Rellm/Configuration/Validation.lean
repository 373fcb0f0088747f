import Rellm.Protos.Permissions
import Rellm.Protos.ServerConfiguration

/-!
# Validation of a configuration request

`validate_configuration` and the field checks it uses. The regular expression
class `\w` and base64 decoding come from other crates and stay parameters.
-/

namespace Rellm

/-- What validation takes from the `regex` and `base64` crates. -/
structure ValidationCrates where
  /-- The Unicode word characters, the class `\w`. -/
  isWordChar : Char → Bool
  /-- URL-safe base64 decoding without padding; `none` is a decoding error. -/
  base64UrlSafeNoPadDecode : String → Option (List UInt8)

/-- An `InvalidArgument` reply. -/
def invalidArgument {α : Type} (message : String) : Except Status α :=
  .error ⟨.invalidArgument, message⟩

/-- Byte-length bounds of a string. -/
def validateLength (value entityName : String) (minLength maxLength : Nat) :
    Except Status Unit :=
  if value.utf8ByteSize < minLength then
    invalidArgument (entityName ++ "_too_short_min_" ++ toString minLength)
  else if value.utf8ByteSize > maxLength then
    invalidArgument (entityName ++ "_too_long_max_" ++ toString maxLength)
  else .ok ()

/-- The values a username may not take. -/
def reservedPaths : List String :=
  ["app", "flutter", "tamagui", "elm", "elm_debug", "debug", "home", "web", "events", "event",
    "e", "posts", "post", "p", "groups", "group", "g", "people", "person", "author", "a",
    "member", "m", "server", "s", "servers", "about", "about_rellm", "u", "users", "user",
    "info", "info_shield", "robots.txt", "favicon.ico", "favicon.png", "sitemap.xml",
    "sitemap.xml.gz", "media", "video", "videos", "audio", "images", "backend_host",
    "frontend_host", "docs", "documentation", "event_ai", "third_party_auth",
    "third_party_auths", "auth", "auths", "oauth", "calendar.ics", "rss.xml", "atom.xml",
    "contact_integrations"]

/-- The values a custom tab path may not take: some top-level pages are allowed. -/
def customTabReservedPaths : List String :=
  reservedPaths.filter fun path => path ∉
    ["events", "people", "users", "posts", "about", "market", "media", "video", "videos",
      "audio", "images"]

/-- The characters that start a short post URL. -/
def reservedLeadChars : List Char := "-._~:/?[]@!$&'()*+,;%=".toList

/-- Rejects a value from a reserved list. -/
def validateReservedValues (value entityName : String) (reservedValues : List String) :
    Except Status Unit :=
  if value ∈ reservedValues then invalidArgument (entityName ++ "_may_not_be_" ++ value)
  else .ok ()

/-- Rejects a value that starts like a short post URL. -/
def validateNoReservedLeadChar (value entityName : String) : Except Status Unit :=
  if value.toList.head?.any fun c => c ∈ reservedLeadChars then
    invalidArgument (entityName ++ "_starts_with_reserved_character")
  else .ok ()

section

variable (crates : ValidationCrates)

/-- Accepts one or more word characters, dots and dashes. -/
def validateAllWordChars (value entityName : String) : Except Status Unit :=
  if !value.isEmpty && value.toList.all fun c => crates.isWordChar c || c = '.' || c = '-' then
    .ok ()
  else invalidArgument (entityName ++ "_contains_non_word_characters")

/-- A username: its length, its characters, its first character, its value. -/
def validateUsername (value : String) : Except Status Unit := do
  validateLength value "username" 1 47
  validateAllWordChars crates value "username"
  validateNoReservedLeadChar value "username"
  validateReservedValues value "username" reservedPaths

/-- A tab path: a username for profile tabs, lowercase letters and `_` otherwise. -/
def validateCustomTabPath (path : String) (isProfile : Bool) : Except Status Unit :=
  if isProfile then validateUsername crates path
  else do
    validateReservedValues path "custom_tab_path" customTabReservedPaths
    if !path.isEmpty && path.toList.all fun c => ('a' ≤ c && c ≤ 'z') || c = '_' then
      validateNoReservedLeadChar path "custom_tab_path"
    else invalidArgument "custom_tab_path_must_match_[a-z_]"

/-- The only tab a reserved top-level path may point to, with its error message. -/
def requiredTab : String → Option (NavigationTab × String)
  | "events" => some (.eventsTab, "events_path_must_point_to_events_tab")
  | "posts" => some (.postsTab, "posts_path_must_point_to_posts_tab")
  | "people" => some (.peopleTab, "people_path_must_point_to_people_tab")
  | "about" => some (.aboutTab, "about_path_must_point_to_about_tab")
  | "market" => some (.marketTab, "market_path_must_point_to_market_tab")
  | "media" => some (.mediaTab, "media_path_must_point_to_media_tab")
  | "video" => some (.videoTab, "video_path_must_point_to_video_tab")
  | "videos" => some (.videoTab, "video_path_must_point_to_video_tab")
  | "audio" => some (.audioTab, "audio_path_must_point_to_audio_tab")
  | "images" => some (.imagesTab, "images_path_must_point_to_images_tab")
  | _ => none

/-- A reserved top-level path points to its own tab. -/
def validateRequiredTab (tab : CustomNavigationTab) : Except Status Unit :=
  match requiredTab tab.path with
  | none => .ok ()
  | some (required, message) =>
    if tab.target = some (.tab required.toI32) then .ok () else invalidArgument message

/-- Whether a tab links to a user's profile. -/
def isProfileTab (tab : CustomNavigationTab) : Bool :=
  match tab.target with
  | some (.isProfile _) => true
  | _ => false

/-- Checks the tabs in order, with the paths and built-in targets seen so far. -/
def validateTabs (seenPaths : List String) (seenTabTargets : List Int32) :
    List CustomNavigationTab → Except Status Unit
  | [] => .ok ()
  | tab :: tabs => do
    validateCustomTabPath crates tab.path (isProfileTab tab)
    if tab.path ∈ seenPaths then invalidArgument "custom_tab_paths_must_be_distinct"
    match tab.target with
    | some (.tab builtin) =>
      if builtin ∈ seenTabTargets then invalidArgument "custom_tab_targets_must_be_distinct"
      validateRequiredTab tab
      validateTabs (tab.path :: seenPaths) (builtin :: seenTabTargets) tabs
    | _ =>
      validateRequiredTab tab
      validateTabs (tab.path :: seenPaths) seenTabTargets tabs

/-- The home page shows the default feed, the events or posts tab, or a post. -/
def validateHomeTarget (home : CustomHomePage) : Except Status Unit :=
  match home.target with
  | some (.tab tab) =>
    if tab = NavigationTab.homeTab.toI32 || tab = NavigationTab.eventsTab.toI32 ||
        tab = NavigationTab.postsTab.toI32 then .ok ()
    else invalidArgument "home_target_must_be_home_events_posts_tab_or_post_id"
  | _ => .ok ()

/-- The custom tabs of a request. -/
def validateCustomTabs (customTabs : CustomNavigationTabSet) : Except Status Unit := do
  match customTabs.home with
  | some home => validateHomeTarget home
  | none => pure ()
  validateTabs crates [] [] customTabs.tabs

/-- A public push key is blank or a 65-byte uncompressed P-256 point. -/
def validateVapidPublicKey (publicVapidKey : String) : Except Status Unit :=
  if publicVapidKey.isEmpty then .ok ()
  else match crates.base64UrlSafeNoPadDecode publicVapidKey with
    | none => invalidArgument "public_vapid_key_is_not_valid_base64url"
    | some decoded =>
      if decoded.length ≠ 65 || decoded.head? ≠ some 0x04 then
        invalidArgument "public_vapid_key_must_be_a_65_byte_uncompressed_p256_point"
      else .ok ()

/-- A private push key is blank or a 32-byte P-256 scalar. -/
def validateVapidPrivateKey (privateVapidKey : String) : Except Status Unit :=
  if privateVapidKey.isEmpty then .ok ()
  else match crates.base64UrlSafeNoPadDecode privateVapidKey with
    | none => invalidArgument "private_vapid_key_is_not_valid_base64url"
    | some decoded =>
      if decoded.length ≠ 32 then
        invalidArgument "private_vapid_key_must_be_a_32_byte_p256_scalar"
      else .ok ()

/-- Either no external CDN, or both of its hosts. -/
def validateExternalCdnConfig (externalCdnConfig : Option ExternalCdnConfig) :
    Except Status Unit :=
  match externalCdnConfig with
  | none => .ok ()
  | some config =>
    if config.backendHost.isEmpty || config.frontendHost.isEmpty then
      invalidArgument "default_client_domain_cannot_be_empty"
    else .ok ()

/-- Whether the request enables some SMS provider. -/
def smsProviderEnabled (config : ServerConfiguration) : Bool :=
  config.twilioConfig.any (·.twilioEnabled) || config.birdConfig.any (·.birdEnabled) ||
    config.telnyxConfig.any (·.telnyxEnabled)

/-- SMS contact needs a provider; email contact is not supported. -/
def validateContactProtocols (smsEnabled : Bool) : List Int32 → Except Status Unit
  | [] => .ok ()
  | protocol :: protocols =>
    match ContactProtocol.ofI32 protocol with
    | some .tel =>
      if smsEnabled then validateContactProtocols smsEnabled protocols
      else .error ⟨.failedPrecondition, "sms_contact_protocol_requires_a_configured_provider"⟩
    | some .mailto => .error ⟨.unimplemented, "mailto_contact_protocol_not_supported"⟩
    | none => validateContactProtocols smsEnabled protocols

/-- Lifts a field check into the validation of the whole request. -/
def liftCheck (check : Except Status Unit) : Except Failure Unit := check.mapError .status

/-- Validates a whole request; a missing `people_settings` aborts the process. -/
def validateConfiguration (config : ServerConfiguration) : Except Failure Unit := do
  match config.customTabs with
  | some customTabs => liftCheck (validateCustomTabs crates customTabs)
  | none => pure ()
  match config.peopleSettings with
  | none => .error .panic
  | some peopleSettings =>
    if peopleSettings.defaultVisibility = Visibility.globalPublic.toI32 &&
        !config.defaultUserPermissions.contains Permission.publishUsersGlobally.toI32 then
      .error (.status ⟨.invalidArgument,
        "global_public_users_require_PUBLISH_USERS_GLOBALLY_permission"⟩)
  liftCheck (validateExternalCdnConfig config.externalCdnConfig)
  match config.webPushConfig with
  | some webPushConfig => do
    liftCheck (validateVapidPublicKey crates webPushConfig.publicVapidKey)
    liftCheck (validateVapidPrivateKey crates webPushConfig.privateVapidKey)
  | none => pure ()
  liftCheck (validateContactProtocols (smsProviderEnabled config)
    config.supportedContactProtocols)

end

end Rellm
