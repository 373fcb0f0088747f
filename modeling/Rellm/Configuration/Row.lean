import Rellm.Configuration.CustomTabs
import Rellm.Protos.Permissions

/-!
# Stored server configurations

A version of the server configuration as one database row. A JSON column is
represented by what it deserializes as; writing a message and reading it back
gives the same message. Exactly one version is active at a time, and the
in-place writers touch only that one.
-/

namespace Rellm

open Foundation

/-- A JSON column read as messages of type `α`: JSON `null`, a document that
deserializes as a message, or any other document. -/
inductive Column (α : Type) where
  | null
  | message (value : α)
  | other (document : String)
  deriving DecidableEq, Repr

namespace Column

variable {α : Type}

/-- The column a message is written as. -/
def toValue (value : α) : Column α := .message value

/-- The column an optional message is written as. -/
def ofOption : Option α → Column α
  | none => .null
  | some value => .message value

/-- Reading a message; `null` and foreign documents fail. -/
def fromValue : Column α → Option α
  | .null => none
  | .message value => some value
  | .other _ => none

/-- Reading an optional message; only foreign documents fail. -/
def fromValueOption : Column α → Option (Option α)
  | .null => some none
  | .message value => some (some value)
  | .other _ => none

/-- Changes the message a column holds, if it holds one. -/
def map {β : Type} (f : α → β) : Column α → Column β
  | .null => .null
  | .message value => .message (f value)
  | .other document => .other document

@[simp] theorem fromValue_map {β : Type} (f : α → β) (column : Column α) :
    (column.map f).fromValue = column.fromValue.map f := by
  cases column <;> rfl

@[simp] theorem fromValue_toValue (value : α) : (toValue value).fromValue = some value := rfl

@[simp] theorem fromValue_ofOption (value : Option α) : (ofOption value).fromValue = value := by
  cases value <;> rfl

@[simp] theorem fromValueOption_toValue (value : α) :
    (toValue value).fromValueOption = some (some value) := rfl

/-- Flattened, the optional reading forgets why nothing was read. -/
@[simp] theorem join_fromValueOption (column : Column α) :
    column.fromValueOption.join = column.fromValue := by
  cases column <;> rfl

end Column

/-- Reading a nullable JSON column: SQL `NULL` and unreadable documents give nothing. -/
def readColumn {α : Type} (column : Option (Column α)) : Option α := column.bind Column.fromValue

@[simp] theorem readColumn_none {α : Type} : readColumn (none : Option (Column α)) = none := rfl

@[simp] theorem readColumn_some {α : Type} (column : Column α) :
    readColumn (some column) = column.fromValue := rfl

@[simp] theorem readColumn_map_toValue {α : Type} (value : Option α) :
    readColumn (value.map Column.toValue) = value := by
  cases value <;> rfl

/-- The columns of a configuration version, before the database assigns its id. -/
structure NewServerConfiguration where
  serverInfo : Column ServerInfo
  anonymousUserPermissions : NamesJson
  defaultUserPermissions : NamesJson
  basicUserPermissions : NamesJson
  peopleSettings : Column FeatureSettings
  groupSettings : Column FeatureSettings
  postSettings : Column PostSettings
  eventSettings : Column EventSettings
  externalCdnConfig : Option (Column ExternalCdnConfig)
  privateUserStrategy : String
  authenticationFeatures : NamesJson
  federationInfo : Column FederationInfo
  webPushConfig : Option (Column WebPushConfig)
  customTabs : Option Json
  clusterResources : Option (Column ClusterResources)
  twilioConfig : Option (Column TwilioConfig)
  birdConfig : Option (Column BirdConfig)
  preferredVerificationApis : Option NamesJson
  mediaSettings : Option (Column MediaSettings)
  stripeConfig : Option (Column StripeConfig)
  marketSettings : Option (Column MarketSettings)
  telnyxConfig : Option (Column TelnyxConfig)
  supportedContactProtocols : Option NamesJson
  stalwartConfig : Option (Column StalwartConfig)
  customCssConfiguration : Option (Column CustomCssConfiguration)
  customCss : Option String

/-- The permissions a new user gets by default. -/
def basicUserPermissionsByDefault : NamesJson :=
  NamesJson.encode Permission.asStrName (unique
    [.viewUsers, .followUsers, .publishUsersLocally, .publishUsersGlobally, .viewMedia,
      .createMedia, .publishMediaLocally, .publishMediaGlobally, .viewGroups, .joinGroups,
      .viewPosts, .createPosts, .replyToPosts, .publishPostsLocally, .publishPostsGlobally,
      .replyToPosts, .viewEvents, .createEvents, .publishEventsLocally, .publishEventsGlobally,
      .rsvpToEvents])

/-- The configuration of a server nobody has configured yet. -/
def defaultServerConfiguration : NewServerConfiguration where
  serverInfo := .toValue {
    name := some "Rellm 🛠️ Unconfigured server"
    description := some "
This is a description of your server and/or the community, business, group, etc. you're running it for.
            "
    privacyPolicy := some "
Rellm is configured to be very private, but is also open-source. The privacy policy should mention any ways you might use private user data.
            "
    mediaPolicy := some "
Your media policy should describe who has ownership of uploaded media, anything you may use it for, etc.
            "
    webUserInterface := some 3
    colors := some { primary := some 0xFF2E86AB, navigation := some 0xFFA23B72 } }
  federationInfo := .toValue {
    servers := ["jonline.io", "bullcity.social", "oakcity.social"].map fun host =>
      { host := host, configuredByDefault := some false, pinnedByDefault := some false } }
  anonymousUserPermissions := NamesJson.encode Permission.asStrName
    [.viewUsers, .viewGroups, .viewPosts, .viewEvents, .viewMedia]
  defaultUserPermissions := basicUserPermissionsByDefault
  basicUserPermissions := basicUserPermissionsByDefault
  peopleSettings := .toValue {
    visible := true
    defaultModeration := Moderation.unmoderated.toI32
    defaultVisibility := Visibility.globalPublic.toI32 }
  groupSettings := .toValue {
    visible := true
    defaultModeration := Moderation.unmoderated.toI32
    defaultVisibility := Visibility.serverPublic.toI32 }
  postSettings := .toValue {
    visible := true
    defaultModeration := Moderation.unmoderated.toI32
    defaultVisibility := Visibility.serverPublic.toI32
    enableReplies := some true }
  eventSettings := .toValue {
    visible := true
    defaultModeration := Moderation.unmoderated.toI32
    defaultVisibility := Visibility.serverPublic.toI32
    enableReplies := some true }
  externalCdnConfig := none
  webPushConfig := none
  customTabs := none
  clusterResources := none
  twilioConfig := none
  birdConfig := none
  preferredVerificationApis := none
  mediaSettings := none
  stripeConfig := none
  marketSettings := none
  telnyxConfig := none
  supportedContactProtocols := none
  stalwartConfig := none
  customCssConfiguration := none
  customCss := none
  privateUserStrategy := PrivateUserStrategy.accountIsFrozen.asStrName
  authenticationFeatures := NamesJson.encode AuthenticationFeature.asStrName
    [.login, .createAccount]

/-- A stored configuration version. -/
structure ServerConfigurationRow extends NewServerConfiguration where
  id : Nat

/-- The versions of the server configuration: the one active row and the ones it
replaced. An installation without any active row is not a value of this type. -/
structure ServerConfigurations where
  active : ServerConfigurationRow
  inactive : List ServerConfigurationRow := []
  nextId : Nat

namespace ServerConfigurations

/-- The active configuration row, as every reader loads it. -/
def getServerConfigurationModel (table : ServerConfigurations) : ServerConfigurationRow :=
  table.active

/-- Deactivates the active version and inserts a new active one. -/
def insertVersion (table : ServerConfigurations) (new : NewServerConfiguration) :
    ServerConfigurations :=
  { active := { new with id := table.nextId }
    inactive := table.active :: table.inactive
    nextId := table.nextId + 1 }

/-- Rewrites the active row in place, without a new version. -/
def updateActive (table : ServerConfigurations)
    (f : ServerConfigurationRow → ServerConfigurationRow) : ServerConfigurations :=
  { table with active := f table.active }

@[simp] theorem insertVersion_active (table : ServerConfigurations)
    (new : NewServerConfiguration) :
    (table.insertVersion new).active = { new with id := table.nextId } := rfl

@[simp] theorem updateActive_active (table : ServerConfigurations)
    (f : ServerConfigurationRow → ServerConfigurationRow) :
    (table.updateActive f).active = f table.active := rfl

end ServerConfigurations

namespace ServerConfigurationRow

/-- The cluster resources stored in a row, if it holds any readable ones. -/
def storedClusterResources (row : ServerConfigurationRow) : Option ClusterResources :=
  readColumn row.clusterResources

/-- The media settings stored in a row, all zero if it holds no readable ones. -/
def storedMediaSettings (row : ServerConfigurationRow) : MediaSettings :=
  (readColumn row.mediaSettings).getD {}

/-- The conductor state a row's cluster resources carry, empty if absent. -/
def conductorState (row : ServerConfigurationRow) : ClusterConductorState :=
  ((row.storedClusterResources.getD {}).conductorState).getD {}

end ServerConfigurationRow

end Rellm
