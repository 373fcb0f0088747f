import Rellm.Protos.Common

/-!
# Server configuration messages

The messages of `server_configuration.proto` and `federation.proto` that make up
a server configuration. Enumeration fields carry their raw `i32`, `uint32` and
`uint64` fields are fixed-width, and every field default is the protobuf one.
-/

namespace Rellm

/-- A `ClusterResource` as the raw enumeration value its messages carry. -/
abbrev ClusterResource := Int32

/-- One namespace's currently held lock on some resources. -/
structure ClusterResourceLock where
  lockHolderNamespaceId : String := ""
  resources : List ClusterResource := []
  acquiredAt : Option Timestamp := none
  deriving DecidableEq, Repr

/-- Configured concurrency limits: parallel lists of resources and limits. -/
structure ClusterResourceLimit where
  resource : List ClusterResource := []
  limit : List UInt32 := []
  deriving DecidableEq, Repr

/-- The conductor's live view of held locks, and its limits. -/
structure ClusterConductorState where
  locks : List ClusterResourceLock := []
  limits : List ClusterResourceLimit := []
  deriving DecidableEq, Repr

/-- An instance's membership of a cluster, with the conductor's own state. -/
structure ClusterResources where
  namespaceId : String := ""
  conductorHost : String := ""
  clusterSharedSecret : String := ""
  conductorState : Option ClusterConductorState := none
  deriving DecidableEq, Repr

structure LockClusterResourcesRequest where
  namespaceId : String := ""
  resources : List ClusterResource := []
  deriving DecidableEq, Repr

structure LockClusterResourcesResponse where
  granted : Bool := false
  holder : Option String := none
  deriving DecidableEq, Repr

structure FreeClusterResourcesRequest where
  namespaceId : String := ""
  resources : List ClusterResource := []
  deriving DecidableEq, Repr

structure FederatedServer where
  host : String := ""
  configuredByDefault : Option Bool := none
  pinnedByDefault : Option Bool := none
  deriving DecidableEq, Repr

structure FacebookAuthConfig where
  appId : String := ""
  appSecret : String := ""
  deriving DecidableEq, Repr

structure XTwitterAuthConfig where
  clientId : String := ""
  clientSecret : String := ""
  deriving DecidableEq, Repr

structure MastodonServer where
  domain : String := ""
  appId : String := ""
  appSecret : String := ""
  configuredByDefault : Option Bool := none
  pinnedByDefault : Option Bool := none
  deriving DecidableEq, Repr

structure BlueskyServer where
  host : String := ""
  configuredByDefault : Option Bool := none
  pinnedByDefault : Option Bool := none
  logoUrl : Option String := none
  deriving DecidableEq, Repr

/-- Federated servers and the credentials of third-party platforms. -/
structure FederationInfo where
  servers : List FederatedServer := []
  unsecureLocalhostFederatedAuthEnabled : Option Bool := none
  facebookAuthConfig : Option FacebookAuthConfig := none
  xTwitterAuthConfig : Option XTwitterAuthConfig := none
  mastodonServers : List MastodonServer := []
  blueskyServers : List BlueskyServer := []
  deriving DecidableEq, Repr

structure ServerLogo where
  squareMediaId : Option String := none
  squareMediaIdDark : Option String := none
  wideMediaId : Option String := none
  wideMediaIdDark : Option String := none
  deriving DecidableEq, Repr

structure ServerColors where
  primary : Option UInt32 := none
  navigation : Option UInt32 := none
  author : Option UInt32 := none
  admin : Option UInt32 := none
  moderator : Option UInt32 := none
  deriving DecidableEq, Repr

structure ServerInfo where
  name : Option String := none
  shortName : Option String := none
  description : Option String := none
  privacyPolicy : Option String := none
  logo : Option ServerLogo := none
  webUserInterface : Option Int32 := none
  colors : Option ServerColors := none
  mediaPolicy : Option String := none
  disableCountabilibar : Option Bool := none
  deriving DecidableEq, Repr

structure FeatureSettings where
  visible : Bool := false
  defaultModeration : Int32 := 0
  defaultVisibility : Int32 := 0
  aliasSingular : Option String := none
  aliasPlural : Option String := none
  deriving DecidableEq, Repr

structure PostSettings where
  visible : Bool := false
  defaultModeration : Int32 := 0
  defaultVisibility : Int32 := 0
  aliasSingular : Option String := none
  aliasPlural : Option String := none
  enableReplies : Option Bool := none
  defaultSort : Int32 := 0
  deriving DecidableEq, Repr

structure EventSettings where
  visible : Bool := false
  defaultModeration : Int32 := 0
  defaultVisibility : Int32 := 0
  aliasSingular : Option String := none
  aliasPlural : Option String := none
  enableReplies : Option Bool := none
  calendarLookbackDays : Option UInt32 := none
  defaultCalendarDisplayMode : Int32 := 0
  showStartedOrLongEventsByDefault : Bool := false
  deriving DecidableEq, Repr

/-- Media settings; the four usage fields are written only by background jobs. -/
structure MediaSettings where
  visible : Bool := false
  defaultModeration : Int32 := 0
  defaultVisibility : Int32 := 0
  defaultUserMediaAllocationBytes : UInt64 := 0
  blockCorsAnonymousMediaAccess : Bool := false
  licensedMediaVisibleGlobally : Bool := false
  hlsStreamingEnabled : Bool := false
  serverMediaAllocationBytes : UInt64 := 0
  serverMediaUsageBytes : UInt64 := 0
  serverMediaUsageCalculatedAt : Option Timestamp := none
  serverObjectStorageUsageBytes : UInt64 := 0
  serverObjectStorageUsageCalculatedAt : Option Timestamp := none
  disableLinkPreviewImages : Bool := false
  preferMetadataForLinkPreviewImages : Bool := false
  deriving DecidableEq, Repr

structure MarketSettings where
  enabled : Bool := false
  stripeConfigured : Bool := false
  deriving DecidableEq, Repr

structure ExternalCdnConfig where
  frontendHost : String := ""
  backendHost : String := ""
  secureMedia : Bool := false
  mediaIpv4Allowlist : Option String := none
  mediaIpv6Allowlist : Option String := none
  cdnGrpc : Bool := false
  deriving DecidableEq, Repr

structure WebPushConfig where
  publicVapidKey : String := ""
  privateVapidKey : String := ""
  deriving DecidableEq, Repr

structure TwilioConfig where
  twilioEnabled : Bool := false
  twilioAccountSid : String := ""
  twilioApiKeySid : String := ""
  twilioApiKeySecret : String := ""
  twilioFromNumber : String := ""
  twilioWebhookSigningKey : String := ""
  useTwilioWebhookSigningKey : Bool := false
  deriving DecidableEq, Repr

structure BirdConfig where
  birdEnabled : Bool := false
  birdAccessKey : String := ""
  birdFrom : String := ""
  birdRegion : String := ""
  birdWebhookSigningKey : String := ""
  useBirdWebhookSigningKey : Bool := false
  deriving DecidableEq, Repr

structure TelnyxConfig where
  telnyxEnabled : Bool := false
  telnyxApiKey : String := ""
  telnyxFromNumber : String := ""
  telnyxMessagingProfileId : String := ""
  telnyxWebhookSigningKey : String := ""
  useTelnyxWebhookSigningKey : Bool := false
  deriving DecidableEq, Repr

structure StripeConfig where
  stripeEnabled : Bool := false
  stripeSecretKey : String := ""
  stripePublishableKey : String := ""
  stripeWebhookSigningSecret : String := ""
  deriving DecidableEq, Repr

structure StalwartConfig where
  stalwartReceivingEnabled : Bool := false
  deriving DecidableEq, Repr

structure CustomCssConfiguration where
  mediaIds : List String := []
  customCss : Option String := none
  forceLightTheme : Bool := false
  forceDarkTheme : Bool := false
  deriving DecidableEq, Repr

/-- The built-in navigation tabs. -/
inductive NavigationTab where
  | homeTab
  | eventsTab
  | postsTab
  | peopleTab
  | aboutTab
  | marketTab
  | mediaTab
  | videoTab
  | audioTab
  | imagesTab
  deriving DecidableEq, Repr

/-- The raw enumeration value of a built-in tab. -/
def NavigationTab.toI32 : NavigationTab → Int32
  | .homeTab => 0
  | .eventsTab => 10
  | .postsTab => 11
  | .peopleTab => 12
  | .aboutTab => 15
  | .marketTab => 16
  | .mediaTab => 17
  | .videoTab => 18
  | .audioTab => 19
  | .imagesTab => 20

/-- What `/` renders: the `target` of a `CustomHomePage`. -/
inductive HomeTarget where
  | tab (tab : Int32)
  | postId (postId : String)
  deriving DecidableEq, Repr

structure CustomHomePage where
  target : Option HomeTarget := none
  pinnedPostIds : List String := []
  showEventsStrip : Bool := false
  defaultEventsStripToRow : Bool := false
  defaultEventsStripCalendarDisplayMode : Int32 := 0
  deriving DecidableEq, Repr

/-- What a tab links to: the `target` of a `CustomNavigationTab`. -/
inductive TabTarget where
  | tab (tab : Int32)
  | postId (postId : String)
  | isProfile (isProfile : Bool)
  deriving DecidableEq, Repr

/-- The `icon` of a `CustomNavigationTab`. -/
inductive TabIcon where
  | emojiIcon (emoji : String)
  | iconMediaId (mediaId : String)
  deriving DecidableEq, Repr

structure CustomNavigationTab where
  target : Option TabTarget := none
  icon : Option TabIcon := none
  title : Option String := none
  path : String := ""
  deriving DecidableEq, Repr

/-- The custom navigation of the web client. -/
structure CustomNavigationTabSet where
  home : Option CustomHomePage := none
  tabs : List CustomNavigationTab := []
  tabStyle : Int32 := 0
  deriving DecidableEq, Repr

/-- Ways to contact a user. -/
inductive ContactProtocol where
  | tel
  | mailto
  deriving DecidableEq, Repr

/-- The raw enumeration value of a contact protocol. -/
def ContactProtocol.toI32 : ContactProtocol → Int32
  | .tel => 0
  | .mailto => 1

/-- The contact protocol with a raw value. -/
def ContactProtocol.ofI32 (value : Int32) : Option ContactProtocol :=
  [.tel, .mailto].find? fun protocol => protocol.toI32 = value

/-- The stored name of a contact protocol. -/
def ContactProtocol.asStrName : ContactProtocol → String
  | .tel => "CONTACT_PROTOCOL_TEL"
  | .mailto => "CONTACT_PROTOCOL_MAILTO"

/-- The contact protocol with exactly this name. -/
def ContactProtocol.fromStrName (name : String) : Option ContactProtocol :=
  [.tel, .mailto].find? fun protocol => protocol.asStrName = name

/-- The SMS providers of contact verification. -/
inductive ContactVerificationApi where
  | twilio
  | bird
  | telnyx
  deriving DecidableEq, Repr

/-- The raw enumeration value of a provider. -/
def ContactVerificationApi.toI32 : ContactVerificationApi → Int32
  | .twilio => 0
  | .bird => 1
  | .telnyx => 2

/-- The provider with a raw value. -/
def ContactVerificationApi.ofI32 (value : Int32) : Option ContactVerificationApi :=
  [.twilio, .bird, .telnyx].find? fun api => api.toI32 = value

/-- The stored name of a provider. -/
def ContactVerificationApi.asStrName : ContactVerificationApi → String
  | .twilio => "CONTACT_VERIFICATION_API_TWILIO"
  | .bird => "CONTACT_VERIFICATION_API_BIRD"
  | .telnyx => "CONTACT_VERIFICATION_API_TELNYX"

/-- The provider with exactly this name. -/
def ContactVerificationApi.fromStrName (name : String) : Option ContactVerificationApi :=
  [.twilio, .bird, .telnyx].find? fun api => api.asStrName = name

/-- What happens to users whose visibility is `PRIVATE`. -/
inductive PrivateUserStrategy where
  | accountIsFrozen
  | limitedCreepiness
  | letMeCreepOnPpl
  deriving DecidableEq, Repr

/-- The stored name of a strategy. -/
def PrivateUserStrategy.asStrName : PrivateUserStrategy → String
  | .accountIsFrozen => "ACCOUNT_IS_FROZEN"
  | .limitedCreepiness => "LIMITED_CREEPINESS"
  | .letMeCreepOnPpl => "LET_ME_CREEP_ON_PPL"

/-- The raw enumeration value of a strategy. -/
def PrivateUserStrategy.toI32 : PrivateUserStrategy → Int32
  | .accountIsFrozen => 0
  | .limitedCreepiness => 1
  | .letMeCreepOnPpl => 2

/-- The strategies, in the order stored names are compared with. -/
def PrivateUserStrategy.all : List PrivateUserStrategy :=
  [.accountIsFrozen, .limitedCreepiness, .letMeCreepOnPpl]

/-- The strategy stored under a name, in any letter case. -/
def PrivateUserStrategy.ofName (name : String) : Option PrivateUserStrategy :=
  all.find? fun strategy => eqIgnoreAsciiCase strategy.asStrName name

/-- The strategy with a raw value. -/
def PrivateUserStrategy.ofI32 (value : Int32) : Option PrivateUserStrategy :=
  all.find? fun strategy => strategy.toI32 = value

/-- Ways of authenticating that the server offers. -/
inductive AuthenticationFeature where
  | unknown
  | createAccount
  | login
  deriving DecidableEq, Repr

/-- The stored name of an authentication feature. -/
def AuthenticationFeature.asStrName : AuthenticationFeature → String
  | .unknown => "AUTHENTICATION_FEATURE_UNKNOWN"
  | .createAccount => "CREATE_ACCOUNT"
  | .login => "LOGIN"

/-- The raw enumeration value of an authentication feature. -/
def AuthenticationFeature.toI32 : AuthenticationFeature → Int32
  | .unknown => 0
  | .createAccount => 1
  | .login => 2

/-- The authentication features, in the order stored names are compared with. -/
def AuthenticationFeature.all : List AuthenticationFeature := [.unknown, .createAccount, .login]

/-- The authentication feature stored under a name, in any letter case. -/
def AuthenticationFeature.ofName (name : String) : Option AuthenticationFeature :=
  all.find? fun feature => eqIgnoreAsciiCase feature.asStrName name

/-- The authentication feature with a raw value. -/
def AuthenticationFeature.ofI32 (value : Int32) : Option AuthenticationFeature :=
  all.find? fun feature => feature.toI32 = value

/-- A whole server configuration as clients read and write it. -/
structure ServerConfiguration where
  serverInfo : Option ServerInfo := none
  federationInfo : Option FederationInfo := none
  anonymousUserPermissions : List Int32 := []
  defaultUserPermissions : List Int32 := []
  basicUserPermissions : List Int32 := []
  customTabs : Option CustomNavigationTabSet := none
  peopleSettings : Option FeatureSettings := none
  groupSettings : Option FeatureSettings := none
  postSettings : Option PostSettings := none
  eventSettings : Option EventSettings := none
  mediaSettings : Option MediaSettings := none
  marketSettings : Option MarketSettings := none
  externalCdnConfig : Option ExternalCdnConfig := none
  clusterResources : Option ClusterResources := none
  privateUserStrategy : Int32 := 0
  authenticationFeatures : List Int32 := []
  webPushConfig : Option WebPushConfig := none
  supportedContactProtocols : List Int32 := []
  preferredVerificationApis : List Int32 := []
  availableVerificationApis : List Int32 := []
  twilioConfig : Option TwilioConfig := none
  birdConfig : Option BirdConfig := none
  stripeConfig : Option StripeConfig := none
  telnyxConfig : Option TelnyxConfig := none
  stalwartConfig : Option StalwartConfig := none
  customCssConfiguration : Option CustomCssConfiguration := none
  deriving DecidableEq, Repr

end Rellm
