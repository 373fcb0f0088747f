import Rellm.Configuration.Row

/-!
# Converting configurations to and from rows

`to_db` writes a request as the columns of a new version and `to_proto` reads a
row back for clients. Reading blanks every write-only secret and falls back for
settings that were never stored.
-/

namespace Rellm

/-- Reading a nullable column that may also hold JSON `null`. -/
def readOptionalColumn {α : Type} (column : Option (Column α)) : Option α :=
  (column.elim (some none) Column.fromValueOption).join

/-- Both ways of reading a nullable column agree. -/
theorem readOptionalColumn_eq {α : Type} (column : Option (Column α)) :
    readOptionalColumn column = readColumn column := by
  cases column with
  | none => rfl
  | some column => exact Column.join_fromValueOption column

/-- The stored form of a request's authentication features. -/
def toJsonAuthenticationFeatures (values : List Int32) : NamesJson :=
  NamesJson.encode AuthenticationFeature.asStrName
    (unique ((unique values).filterMap AuthenticationFeature.ofI32))

/-- The raw authentication features a column names. -/
def toI32AuthenticationFeatures (json : NamesJson) : List Int32 :=
  (unique (json.decode AuthenticationFeature.ofName)).map AuthenticationFeature.toI32

/-- The stored name of a request's private user strategy. A value outside the
enumeration has no defined conversion in the source; it gets no name here. -/
def toStringPrivateUserStrategy (value : Int32) : String :=
  ((PrivateUserStrategy.ofI32 value).map PrivateUserStrategy.asStrName).getD ""

/-- The columns a request is stored as, before secrets are merged. -/
def toDb (config : ServerConfiguration) : NewServerConfiguration where
  serverInfo := .ofOption config.serverInfo
  federationInfo := .ofOption config.federationInfo
  anonymousUserPermissions := toJsonPermissions config.anonymousUserPermissions
  defaultUserPermissions := toJsonPermissions config.defaultUserPermissions
  basicUserPermissions := toJsonPermissions config.basicUserPermissions
  peopleSettings := .ofOption config.peopleSettings
  groupSettings := .ofOption config.groupSettings
  postSettings := .ofOption config.postSettings
  eventSettings := .ofOption config.eventSettings
  externalCdnConfig := config.externalCdnConfig.map .toValue
  webPushConfig := config.webPushConfig.map .toValue
  twilioConfig := config.twilioConfig.map .toValue
  birdConfig := config.birdConfig.map .toValue
  telnyxConfig := config.telnyxConfig.map .toValue
  stalwartConfig := config.stalwartConfig.map .toValue
  customCssConfiguration := none
  customCss := none
  mediaSettings := config.mediaSettings.map .toValue
  stripeConfig := config.stripeConfig.map .toValue
  marketSettings := config.marketSettings.map .toValue
  preferredVerificationApis := some (NamesJson.encode ContactVerificationApi.asStrName
    (config.preferredVerificationApis.filterMap ContactVerificationApi.ofI32))
  supportedContactProtocols := some (NamesJson.encode ContactProtocol.asStrName
    (config.supportedContactProtocols.filterMap ContactProtocol.ofI32))
  customTabs := config.customTabs.map CustomNavigationTabSet.toValue
  clusterResources := config.clusterResources.map .toValue
  privateUserStrategy := toStringPrivateUserStrategy config.privateUserStrategy
  authenticationFeatures := toJsonAuthenticationFeatures config.authenticationFeatures

/-- The media settings of a server that never stored any. -/
def defaultMediaSettings : MediaSettings where
  visible := true
  defaultModeration := Moderation.unmoderated.toI32
  defaultVisibility := Visibility.globalPublic.toI32
  defaultUserMediaAllocationBytes := 15728640

/-- Media settings with their read-time fallbacks: a stored blob without a user
allocation counts as stale and is replaced, a missing server allocation is 5 GiB. -/
def normalizedMediaSettings (raw : Option (Column MediaSettings)) : MediaSettings :=
  let settings := ((readColumn raw).filter fun m =>
    m.defaultUserMediaAllocationBytes ≠ 0).getD defaultMediaSettings
  if settings.serverMediaAllocationBytes = 0 then
    { settings with serverMediaAllocationBytes := 5368709120 }
  else settings

def FacebookAuthConfig.blanked (c : FacebookAuthConfig) : FacebookAuthConfig :=
  { c with appSecret := "" }

def XTwitterAuthConfig.blanked (c : XTwitterAuthConfig) : XTwitterAuthConfig :=
  { c with clientSecret := "" }

/-- Federation info without the two write-only secrets. The app secrets of
Mastodon servers are passed through. -/
def FederationInfo.blanked (info : FederationInfo) : FederationInfo :=
  { info with
    facebookAuthConfig := info.facebookAuthConfig.map (·.blanked)
    xTwitterAuthConfig := info.xTwitterAuthConfig.map (·.blanked) }

def WebPushConfig.blanked (c : WebPushConfig) : WebPushConfig :=
  { c with privateVapidKey := "" }

def TwilioConfig.blanked (c : TwilioConfig) : TwilioConfig :=
  { c with twilioApiKeySecret := "", twilioWebhookSigningKey := "" }

def BirdConfig.blanked (c : BirdConfig) : BirdConfig :=
  { c with birdAccessKey := "", birdWebhookSigningKey := "" }

def TelnyxConfig.blanked (c : TelnyxConfig) : TelnyxConfig :=
  { c with telnyxApiKey := "", telnyxWebhookSigningKey := "" }

def StripeConfig.blanked (c : StripeConfig) : StripeConfig :=
  { c with stripeSecretKey := "", stripeWebhookSigningSecret := "" }

def ClusterResources.blanked (c : ClusterResources) : ClusterResources :=
  { c with clusterSharedSecret := "" }

/-- Whether Stripe is usable: enabled, with a secret key. -/
def stripeConfigured (config : Option StripeConfig) : Bool :=
  config.any fun c => c.stripeEnabled && !c.stripeSecretKey.isEmpty

/-- The preferred providers that are enabled, then the other enabled ones. -/
def availableVerificationApis (enabled : ContactVerificationApi → Bool)
    (preferred : List ContactVerificationApi) : List Int32 :=
  [ContactVerificationApi.twilio, .bird, .telnyx].foldl
    (fun available api =>
      if enabled api && !available.contains api.toI32 then available ++ [api.toI32]
      else available)
    ((preferred.filter enabled).map ContactVerificationApi.toI32)

/-- The configuration clients see; `none` when reading a mandatory column panics. -/
def toProto (row : NewServerConfiguration) : Option ServerConfiguration := do
  let serverInfo ← row.serverInfo.fromValue
  let federationInfo ← row.federationInfo.fromValue
  let groupSettings ← row.groupSettings.fromValue
  let peopleSettings ← row.peopleSettings.fromValue
  let postSettings ← row.postSettings.fromValue
  let eventSettings ← row.eventSettings.fromValue
  let privateUserStrategy ← PrivateUserStrategy.ofName row.privateUserStrategy
  let twilioConfig := (readOptionalColumn row.twilioConfig).map (·.blanked)
  let birdConfig := (readOptionalColumn row.birdConfig).map (·.blanked)
  let telnyxConfig := (readOptionalColumn row.telnyxConfig).map (·.blanked)
  let rawStripeConfig := readOptionalColumn row.stripeConfig
  let preferred := (row.preferredVerificationApis.map
    (·.decode ContactVerificationApi.fromStrName)).getD []
  let enabled := fun api : ContactVerificationApi => match api with
    | .twilio => twilioConfig.any (·.twilioEnabled)
    | .bird => birdConfig.any (·.birdEnabled)
    | .telnyx => telnyxConfig.any (·.telnyxEnabled)
  return {
    serverInfo := some serverInfo
    federationInfo := some federationInfo.blanked
    anonymousUserPermissions := row.anonymousUserPermissions.toI32Permissions
    defaultUserPermissions := row.defaultUserPermissions.toI32Permissions
    basicUserPermissions := row.basicUserPermissions.toI32Permissions
    peopleSettings := some peopleSettings
    groupSettings := some groupSettings
    postSettings := some postSettings
    eventSettings := some eventSettings
    customTabs := row.customTabs.bind deserializeCustomTabs
    mediaSettings := some (normalizedMediaSettings row.mediaSettings)
    marketSettings := some { (readColumn row.marketSettings).getD {} with
      stripeConfigured := stripeConfigured rawStripeConfig }
    privateUserStrategy := privateUserStrategy.toI32
    authenticationFeatures := toI32AuthenticationFeatures row.authenticationFeatures
    externalCdnConfig := row.externalCdnConfig.map fun c => c.fromValue.getD {}
    clusterResources := (readColumn row.clusterResources).map (·.blanked)
    webPushConfig := (readOptionalColumn row.webPushConfig).map (·.blanked)
    twilioConfig := twilioConfig
    birdConfig := birdConfig
    telnyxConfig := telnyxConfig
    stalwartConfig := readColumn row.stalwartConfig
    customCssConfiguration := (readColumn row.customCssConfiguration).map fun c =>
      { c with customCss := none }
    stripeConfig := rawStripeConfig.map (·.blanked)
    preferredVerificationApis := preferred.map ContactVerificationApi.toI32
    availableVerificationApis := availableVerificationApis enabled preferred
    supportedContactProtocols := ((row.supportedContactProtocols.map
      (·.decode ContactProtocol.fromStrName)).getD []).map ContactProtocol.toI32 }

end Rellm
