import Rellm.Configuration.Marshaling
import Rellm.Configuration.Validation

/-!
# ConfigureServer

The request becomes the columns of a new version, patched from the active
version as it was read: write-only secrets left blank, read-only media usage
and the cluster's conductor state are carried over. The new version is then
inserted in a transaction, which carries over the custom CSS of the row that is
active at that moment.
-/

namespace Rellm

/-- A blank incoming secret keeps the stored one. -/
def mergeSecret (incoming existing : String) : String :=
  if incoming.isEmpty then existing else incoming

@[simp] theorem mergeSecret_empty (existing : String) : mergeSecret "" existing = existing := rfl

/-- Replaces a federation setting in the new version's column, which was written
from a present `federation_info` and so reads back. -/
def updateFederationInfo (new : NewServerConfiguration) (f : FederationInfo → FederationInfo) :
    NewServerConfiguration :=
  { new with federationInfo := .toValue (f (new.federationInfo.fromValue.getD {})) }

section

variable (existing : ServerConfigurationRow) (request : ServerConfiguration)

/-- A blank Facebook app secret keeps the stored one. -/
def mergeFacebookAuthConfig (new : NewServerConfiguration) : NewServerConfiguration :=
  match (request.federationInfo.bind (·.facebookAuthConfig)).filter (·.appSecret.isEmpty) with
  | none => new
  | some incoming =>
    let existingSecret := ((existing.federationInfo.fromValue.bind
      (·.facebookAuthConfig)).map (·.appSecret)).getD ""
    updateFederationInfo new fun info => { info with
      facebookAuthConfig := some { appId := incoming.appId, appSecret := existingSecret } }

/-- A blank X client secret keeps the stored one. -/
def mergeXTwitterAuthConfig (new : NewServerConfiguration) : NewServerConfiguration :=
  match (request.federationInfo.bind (·.xTwitterAuthConfig)).filter (·.clientSecret.isEmpty) with
  | none => new
  | some incoming =>
    let existingSecret := ((existing.federationInfo.fromValue.bind
      (·.xTwitterAuthConfig)).map (·.clientSecret)).getD ""
    updateFederationInfo new fun info => { info with
      xTwitterAuthConfig := some {
        clientId := incoming.clientId, clientSecret := existingSecret } }

/-- A blank private push key keeps the stored one. -/
def mergeWebPushConfig (new : NewServerConfiguration) : NewServerConfiguration :=
  match request.webPushConfig.filter (·.privateVapidKey.isEmpty) with
  | none => new
  | some incoming =>
    let existingPrivateKey := ((readColumn existing.webPushConfig).map (·.privateVapidKey)).getD ""
    { new with webPushConfig := some (.toValue
        { publicVapidKey := incoming.publicVapidKey, privateVapidKey := existingPrivateKey }) }

/-- Blank Twilio secrets keep the stored ones, each on its own. -/
def mergeTwilioConfig (new : NewServerConfiguration) : NewServerConfiguration :=
  match request.twilioConfig with
  | none => new
  | some incoming =>
    let stored := readColumn existing.twilioConfig
    { new with twilioConfig := some (.toValue
        { twilioEnabled := incoming.twilioEnabled
          twilioAccountSid := incoming.twilioAccountSid
          twilioApiKeySid := incoming.twilioApiKeySid
          twilioApiKeySecret := mergeSecret incoming.twilioApiKeySecret
            ((stored.map (·.twilioApiKeySecret)).getD "")
          twilioFromNumber := incoming.twilioFromNumber
          twilioWebhookSigningKey := mergeSecret incoming.twilioWebhookSigningKey
            ((stored.map (·.twilioWebhookSigningKey)).getD "")
          useTwilioWebhookSigningKey := incoming.useTwilioWebhookSigningKey }) }

/-- Blank Bird secrets keep the stored ones, each on its own. -/
def mergeBirdConfig (new : NewServerConfiguration) : NewServerConfiguration :=
  match request.birdConfig with
  | none => new
  | some incoming =>
    let stored := readColumn existing.birdConfig
    { new with birdConfig := some (.toValue
        { birdEnabled := incoming.birdEnabled
          birdAccessKey := mergeSecret incoming.birdAccessKey
            ((stored.map (·.birdAccessKey)).getD "")
          birdFrom := incoming.birdFrom
          birdRegion := incoming.birdRegion
          birdWebhookSigningKey := mergeSecret incoming.birdWebhookSigningKey
            ((stored.map (·.birdWebhookSigningKey)).getD "")
          useBirdWebhookSigningKey := incoming.useBirdWebhookSigningKey }) }

/-- Blank Telnyx secrets keep the stored ones, each on its own. -/
def mergeTelnyxConfig (new : NewServerConfiguration) : NewServerConfiguration :=
  match request.telnyxConfig with
  | none => new
  | some incoming =>
    let stored := readColumn existing.telnyxConfig
    { new with telnyxConfig := some (.toValue
        { telnyxEnabled := incoming.telnyxEnabled
          telnyxApiKey := mergeSecret incoming.telnyxApiKey
            ((stored.map (·.telnyxApiKey)).getD "")
          telnyxFromNumber := incoming.telnyxFromNumber
          telnyxMessagingProfileId := incoming.telnyxMessagingProfileId
          telnyxWebhookSigningKey := mergeSecret incoming.telnyxWebhookSigningKey
            ((stored.map (·.telnyxWebhookSigningKey)).getD "")
          useTelnyxWebhookSigningKey := incoming.useTelnyxWebhookSigningKey }) }

/-- Blank Stripe secrets keep the stored ones, each on its own. -/
def mergeStripeConfig (new : NewServerConfiguration) : NewServerConfiguration :=
  match request.stripeConfig with
  | none => new
  | some incoming =>
    let stored := readColumn existing.stripeConfig
    { new with stripeConfig := some (.toValue
        { stripeEnabled := incoming.stripeEnabled
          stripePublishableKey := incoming.stripePublishableKey
          stripeSecretKey := mergeSecret incoming.stripeSecretKey
            ((stored.map (·.stripeSecretKey)).getD "")
          stripeWebhookSigningSecret := mergeSecret incoming.stripeWebhookSigningSecret
            ((stored.map (·.stripeWebhookSigningSecret)).getD "") }) }

/-- The media settings of the new version: usage is always the stored one, the
server allocation only changes with `EDIT_SERVER_MEDIA_ALLOCATION`. -/
def carriedMediaSettings (user : User) : Option (Column MediaSettings) :=
  let stored := existing.storedMediaSettings
  request.mediaSettings.map fun incoming => .toValue
    { incoming with
      serverMediaAllocationBytes :=
        if holdsExactly user .editServerMediaAllocation then incoming.serverMediaAllocationBytes
        else stored.serverMediaAllocationBytes
      serverMediaUsageBytes := stored.serverMediaUsageBytes
      serverMediaUsageCalculatedAt := stored.serverMediaUsageCalculatedAt
      serverObjectStorageUsageBytes := stored.serverObjectStorageUsageBytes
      serverObjectStorageUsageCalculatedAt := stored.serverObjectStorageUsageCalculatedAt }

/-- The cluster resources of the new version: without `EDIT_CLUSTER_SETTINGS` the
stored ones, with it the requested ones around the stored locks. -/
def carriedClusterResources (user : User) : Option (Column ClusterResources) :=
  let stored := existing.storedClusterResources
  if holdsExactly user .editClusterSettings then
    request.clusterResources.map fun incoming => .toValue
      { namespaceId := incoming.namespaceId
        conductorHost := incoming.conductorHost
        clusterSharedSecret := mergeSecret incoming.clusterSharedSecret
          ((stored.map (·.clusterSharedSecret)).getD "")
        conductorState := (stored.bind (·.conductorState)).map fun state =>
          { locks := state.locks
            limits := (incoming.conductorState.map (·.limits)).getD state.limits } }
  else stored.map .toValue

/-- The columns of the new version, built from the version that was read. -/
def buildConfiguration (user : User) : NewServerConfiguration :=
  let new := toDb request
  let new := mergeFacebookAuthConfig existing request new
  let new := mergeXTwitterAuthConfig existing request new
  let new := mergeWebPushConfig existing request new
  let new := mergeTwilioConfig existing request new
  let new := mergeBirdConfig existing request new
  let new := mergeTelnyxConfig existing request new
  let new := mergeStripeConfig existing request new
  { new with
    mediaSettings := carriedMediaSettings existing request user
    clusterResources := carriedClusterResources existing request user }

end

/-- The transaction: the custom CSS is read from the row active now. -/
def commitConfiguration (table : ServerConfigurations) (new : NewServerConfiguration) :
    ServerConfigurations :=
  table.insertVersion { new with
    customCssConfiguration := table.active.customCssConfiguration
    customCss := table.active.customCss }

/-- The checks a request must pass before anything is written. -/
def validateConfigureServer (crates : ValidationCrates) (request : ServerConfiguration)
    (user : User) : Except Failure Unit := do
  liftCheck (validatePermission (some user) .admin)
  validateConfiguration crates request

/-- `ConfigureServer`: the configurations afterwards and the answer. The answer
is read back from the committed row. -/
def configureServer (crates : ValidationCrates) (request : ServerConfiguration) (user : User)
    (table : ServerConfigurations) : ServerConfigurations × Except Failure ServerConfiguration :=
  match validateConfigureServer crates request user with
  | .error failure => (table, .error failure)
  | .ok _ =>
    let new := buildConfiguration table.getServerConfigurationModel request user
    let table' := commitConfiguration table new
    (table', match toProto table'.active.toNewServerConfiguration with
      | some configuration => .ok configuration
      | none => .error .panic)

section

variable (existing : ServerConfigurationRow) (request : ServerConfiguration) (user : User)

@[simp] theorem buildConfiguration_mediaSettings :
    (buildConfiguration existing request user).mediaSettings =
      carriedMediaSettings existing request user := rfl

@[simp] theorem buildConfiguration_clusterResources :
    (buildConfiguration existing request user).clusterResources =
      carriedClusterResources existing request user := rfl

@[simp] theorem commitConfiguration_mediaSettings (table : ServerConfigurations)
    (new : NewServerConfiguration) :
    (commitConfiguration table new).active.mediaSettings = new.mediaSettings := rfl

@[simp] theorem commitConfiguration_clusterResources (table : ServerConfigurations)
    (new : NewServerConfiguration) :
    (commitConfiguration table new).active.clusterResources = new.clusterResources := rfl

/-- A rejected request changes nothing. -/
theorem configureServer_of_error {crates : ValidationCrates} {table : ServerConfigurations}
    {failure : Failure} (h : validateConfigureServer crates request user = .error failure) :
    configureServer crates request user table = (table, .error failure) := by
  rw [configureServer, h]

/-- A valid request commits the version built from the active row. -/
theorem configureServer_of_valid {crates : ValidationCrates} {table : ServerConfigurations}
    (h : validateConfigureServer crates request user = .ok ()) :
    (configureServer crates request user table).1 =
      commitConfiguration table (buildConfiguration table.active request user) := by
  rw [configureServer, h]
  rfl

end

end Rellm
