import Rellm.Configuration.ConfigureServer

/-!
# Write-only secrets

Clients read a configuration with its secrets blanked, and send it back that
way. Nothing of a secret but whether Stripe has a key reaches a client, and a
secret that comes back as it was read keeps its stored value.
-/

namespace Rellm

/-- The write-only secrets of a server configuration. -/
inductive Secret where
  | facebookAppSecret
  | xTwitterClientSecret
  | privateVapidKey
  | twilioApiKeySecret
  | twilioWebhookSigningKey
  | birdAccessKey
  | birdWebhookSigningKey
  | telnyxApiKey
  | telnyxWebhookSigningKey
  | stripeSecretKey
  | stripeWebhookSigningSecret
  | clusterSharedSecret
  deriving DecidableEq, Repr

/-- A secret in a message; `none` when the submessage it belongs to is absent. -/
def ServerConfiguration.secret (config : ServerConfiguration) : Secret → Option String
  | .facebookAppSecret =>
    (config.federationInfo.bind (·.facebookAuthConfig)).map (·.appSecret)
  | .xTwitterClientSecret =>
    (config.federationInfo.bind (·.xTwitterAuthConfig)).map (·.clientSecret)
  | .privateVapidKey => config.webPushConfig.map (·.privateVapidKey)
  | .twilioApiKeySecret => config.twilioConfig.map (·.twilioApiKeySecret)
  | .twilioWebhookSigningKey => config.twilioConfig.map (·.twilioWebhookSigningKey)
  | .birdAccessKey => config.birdConfig.map (·.birdAccessKey)
  | .birdWebhookSigningKey => config.birdConfig.map (·.birdWebhookSigningKey)
  | .telnyxApiKey => config.telnyxConfig.map (·.telnyxApiKey)
  | .telnyxWebhookSigningKey => config.telnyxConfig.map (·.telnyxWebhookSigningKey)
  | .stripeSecretKey => config.stripeConfig.map (·.stripeSecretKey)
  | .stripeWebhookSigningSecret => config.stripeConfig.map (·.stripeWebhookSigningSecret)
  | .clusterSharedSecret => config.clusterResources.map (·.clusterSharedSecret)

namespace NewServerConfiguration

/-- A secret in the columns of a version. -/
def secret (row : NewServerConfiguration) : Secret → Option String
  | .facebookAppSecret =>
    (row.federationInfo.fromValue.bind (·.facebookAuthConfig)).map (·.appSecret)
  | .xTwitterClientSecret =>
    (row.federationInfo.fromValue.bind (·.xTwitterAuthConfig)).map (·.clientSecret)
  | .privateVapidKey => (readColumn row.webPushConfig).map (·.privateVapidKey)
  | .twilioApiKeySecret => (readColumn row.twilioConfig).map (·.twilioApiKeySecret)
  | .twilioWebhookSigningKey => (readColumn row.twilioConfig).map (·.twilioWebhookSigningKey)
  | .birdAccessKey => (readColumn row.birdConfig).map (·.birdAccessKey)
  | .birdWebhookSigningKey => (readColumn row.birdConfig).map (·.birdWebhookSigningKey)
  | .telnyxApiKey => (readColumn row.telnyxConfig).map (·.telnyxApiKey)
  | .telnyxWebhookSigningKey => (readColumn row.telnyxConfig).map (·.telnyxWebhookSigningKey)
  | .stripeSecretKey => (readColumn row.stripeConfig).map (·.stripeSecretKey)
  | .stripeWebhookSigningSecret =>
    (readColumn row.stripeConfig).map (·.stripeWebhookSigningSecret)
  | .clusterSharedSecret => (readColumn row.clusterResources).map (·.clusterSharedSecret)

/-- The columns with every secret blanked and all else unchanged. -/
def withoutSecrets (row : NewServerConfiguration) : NewServerConfiguration :=
  { row with
    federationInfo := row.federationInfo.map (·.blanked)
    webPushConfig := row.webPushConfig.map (·.map (·.blanked))
    twilioConfig := row.twilioConfig.map (·.map (·.blanked))
    birdConfig := row.birdConfig.map (·.map (·.blanked))
    telnyxConfig := row.telnyxConfig.map (·.map (·.blanked))
    stripeConfig := row.stripeConfig.map (·.map (·.blanked))
    clusterResources := row.clusterResources.map (·.map (·.blanked)) }

/-- Whether Stripe is usable, the one thing clients learn about a secret. -/
def stripeUsable (row : NewServerConfiguration) : Bool :=
  stripeConfigured (readColumn row.stripeConfig)

end NewServerConfiguration

section Reading

/-- A column blanked before it is read and blanked is read the same. -/
theorem readColumn_map_blanked {α : Type} (blanked : α → α)
    (hidem : ∀ a, blanked (blanked a) = blanked a) (column : Option (Column α)) :
    (readColumn (column.map (·.map blanked))).map blanked = (readColumn column).map blanked := by
  have hread : readColumn (column.map (·.map blanked)) = (readColumn column).map blanked := by
    cases column with
    | none => rfl
    | some column => exact Column.fromValue_map blanked column
  rw [hread, Option.map_map]
  congr 1
  funext a
  exact hidem a

variable {row : NewServerConfiguration} {config : ServerConfiguration}

/-- What clients read holds every secret blank. -/
theorem toProto_secret (h : toProto row = some config) (s : Secret) :
    config.secret s = (row.secret s).map fun _ => "" := by
  obtain ⟨serverInfo, hserverInfo, h⟩ := Option.bind_eq_some_iff.mp h
  obtain ⟨federationInfo, hfederationInfo, h⟩ := Option.bind_eq_some_iff.mp h
  obtain ⟨_, _, h⟩ := Option.bind_eq_some_iff.mp h
  obtain ⟨_, _, h⟩ := Option.bind_eq_some_iff.mp h
  obtain ⟨_, _, h⟩ := Option.bind_eq_some_iff.mp h
  obtain ⟨_, _, h⟩ := Option.bind_eq_some_iff.mp h
  obtain ⟨_, _, h⟩ := Option.bind_eq_some_iff.mp h
  cases h
  cases s with
  | facebookAppSecret =>
    simp only [ServerConfiguration.secret, NewServerConfiguration.secret, hfederationInfo,
      Option.bind_some, FederationInfo.blanked, Option.map_map]
    rfl
  | xTwitterClientSecret =>
    simp only [ServerConfiguration.secret, NewServerConfiguration.secret, hfederationInfo,
      Option.bind_some, FederationInfo.blanked, Option.map_map]
    rfl
  | _ =>
    simp only [ServerConfiguration.secret, NewServerConfiguration.secret, readOptionalColumn_eq,
      Option.map_map]
    rfl

/-- Blanked federation info has nothing left to blank. -/
theorem FederationInfo.blanked_blanked (info : FederationInfo) :
    info.blanked.blanked = info.blanked := by
  simp only [FederationInfo.blanked, Option.map_map]
  rfl

/-- A message with the given answer to whether Stripe is usable. -/
def ServerConfiguration.withStripeUsable (config : ServerConfiguration) (usable : Bool) :
    ServerConfiguration :=
  { config with
    marketSettings := config.marketSettings.map fun m => { m with stripeConfigured := usable } }

/-- What clients read comes from the blanked columns, and the one Stripe bit. -/
theorem toProto_eq_withoutSecrets (row : NewServerConfiguration) :
    toProto row = (toProto row.withoutSecrets).map (·.withStripeUsable row.stripeUsable) := by
  have hfederation : row.withoutSecrets.federationInfo.fromValue =
      row.federationInfo.fromValue.map (·.blanked) := Column.fromValue_map _ _
  have hwebPush : (readColumn row.withoutSecrets.webPushConfig).map (·.blanked) =
      (readColumn row.webPushConfig).map (·.blanked) :=
    readColumn_map_blanked WebPushConfig.blanked (fun _ => rfl) row.webPushConfig
  have htwilio : (readColumn row.withoutSecrets.twilioConfig).map (·.blanked) =
      (readColumn row.twilioConfig).map (·.blanked) :=
    readColumn_map_blanked TwilioConfig.blanked (fun _ => rfl) row.twilioConfig
  have hbird : (readColumn row.withoutSecrets.birdConfig).map (·.blanked) =
      (readColumn row.birdConfig).map (·.blanked) :=
    readColumn_map_blanked BirdConfig.blanked (fun _ => rfl) row.birdConfig
  have htelnyx : (readColumn row.withoutSecrets.telnyxConfig).map (·.blanked) =
      (readColumn row.telnyxConfig).map (·.blanked) :=
    readColumn_map_blanked TelnyxConfig.blanked (fun _ => rfl) row.telnyxConfig
  have hstripe : (readColumn row.withoutSecrets.stripeConfig).map (·.blanked) =
      (readColumn row.stripeConfig).map (·.blanked) :=
    readColumn_map_blanked StripeConfig.blanked (fun _ => rfl) row.stripeConfig
  have hcluster : (readColumn row.withoutSecrets.clusterResources).map (·.blanked) =
      (readColumn row.clusterResources).map (·.blanked) :=
    readColumn_map_blanked ClusterResources.blanked (fun _ => rfl) row.clusterResources
  simp only [toProto, readOptionalColumn_eq, hfederation, hwebPush, htwilio, hbird, htelnyx,
    hstripe, hcluster]
  cases row.federationInfo.fromValue with
  | none => simp [NewServerConfiguration.withoutSecrets]
  | some info =>
    simp only [NewServerConfiguration.withoutSecrets, Option.map_some, Option.bind_eq_bind,
      Option.bind_some, Option.map_bind, Function.comp_def, info.blanked_blanked, Option.pure_def]
    rfl

end Reading

section Writing

variable (existing : ServerConfigurationRow) (request : ServerConfiguration)

/-- A column written from a changed message reads back as that message. -/
theorem readColumn_map_toValue_comp {α β : Type} (f : α → β) (value : Option α) :
    readColumn (value.map fun a => Column.toValue (f a)) = value.map f := by
  cases value <;> rfl

/-- What a new version stores for an incoming secret: blank keeps the stored one. -/
def storedSecret (s : Secret) (incoming : String) : String :=
  mergeSecret incoming ((existing.secret s).getD "")

/-- The Facebook merge touches only that secret of the federation info. -/
theorem mergeFacebookAuthConfig_eq {new : NewServerConfiguration} {info : Option FederationInfo}
    (hnew : new.federationInfo = .ofOption info)
    (hinfo : request.federationInfo.bind (·.facebookAuthConfig) =
      info.bind (·.facebookAuthConfig)) :
    mergeFacebookAuthConfig existing request new =
      { new with
        federationInfo := .ofOption (info.map fun i => { i with
          facebookAuthConfig := i.facebookAuthConfig.map fun c =>
            { c with appSecret := storedSecret existing .facebookAppSecret c.appSecret } }) } := by
  rw [mergeFacebookAuthConfig, hinfo]
  cases info with
  | none =>
    rw [Option.map_none, ← hnew]
    rfl
  | some i =>
    rw [Option.bind_some, Option.map_some]
    cases hconfig : i.facebookAuthConfig with
    | none =>
      rw [Option.map_none, ← hconfig, ← hnew, hconfig]
      rfl
    | some c =>
      rw [Option.filter_some, Option.map_some]
      by_cases hblank : c.appSecret.isEmpty = true
      · simp only [if_pos hblank, updateFederationInfo, hnew, storedSecret, mergeSecret]
        rfl
      · simp only [if_neg hblank, storedSecret, mergeSecret]
        rw [← hconfig, ← hnew]

/-- The X merge touches only that secret of the federation info. -/
theorem mergeXTwitterAuthConfig_eq {new : NewServerConfiguration} {info : Option FederationInfo}
    (hnew : new.federationInfo = .ofOption info)
    (hinfo : request.federationInfo.bind (·.xTwitterAuthConfig) =
      info.bind (·.xTwitterAuthConfig)) :
    mergeXTwitterAuthConfig existing request new =
      { new with
        federationInfo := .ofOption (info.map fun i => { i with
          xTwitterAuthConfig := i.xTwitterAuthConfig.map fun c =>
            { c with clientSecret := storedSecret existing .xTwitterClientSecret c.clientSecret } }) } := by
  rw [mergeXTwitterAuthConfig, hinfo]
  cases info with
  | none =>
    rw [Option.map_none, ← hnew]
    rfl
  | some i =>
    rw [Option.bind_some, Option.map_some]
    cases hconfig : i.xTwitterAuthConfig with
    | none =>
      rw [Option.map_none, ← hconfig, ← hnew, hconfig]
      rfl
    | some c =>
      rw [Option.filter_some, Option.map_some]
      by_cases hblank : c.clientSecret.isEmpty = true
      · simp only [if_pos hblank, updateFederationInfo, hnew, storedSecret, mergeSecret]
        rfl
      · simp only [if_neg hblank, storedSecret, mergeSecret]
        rw [← hconfig, ← hnew]

/-- The push key merge. -/
theorem mergeWebPushConfig_eq {new : NewServerConfiguration}
    (h : new.webPushConfig = request.webPushConfig.map .toValue) :
    mergeWebPushConfig existing request new =
      { new with
        webPushConfig := request.webPushConfig.map fun c => .toValue
          { c with privateVapidKey := storedSecret existing .privateVapidKey c.privateVapidKey } } := by
  rw [mergeWebPushConfig]
  cases hconfig : request.webPushConfig with
  | none =>
    rw [hconfig, Option.map_none] at h
    rw [Option.map_none, ← h]
    rfl
  | some c =>
    rw [hconfig, Option.map_some] at h
    by_cases hblank : c.privateVapidKey.isEmpty = true
    · rw [Option.filter_some, if_pos hblank]
      simp only [Option.map_some, storedSecret, mergeSecret, if_pos hblank]
      rfl
    · rw [Option.filter_some, if_neg hblank]
      simp only [Option.map_some, storedSecret, mergeSecret, if_neg hblank, ← h]

/-- The Twilio merge touches only the two Twilio secrets. -/
theorem mergeTwilioConfig_eq {new : NewServerConfiguration}
    (h : new.twilioConfig = request.twilioConfig.map .toValue) :
    mergeTwilioConfig existing request new =
      { new with
        twilioConfig := request.twilioConfig.map fun c => .toValue
          { c with
            twilioApiKeySecret :=
              storedSecret existing .twilioApiKeySecret c.twilioApiKeySecret
            twilioWebhookSigningKey :=
              storedSecret existing .twilioWebhookSigningKey c.twilioWebhookSigningKey } } := by
  rw [mergeTwilioConfig]
  cases hconfig : request.twilioConfig with
  | none =>
    rw [hconfig, Option.map_none] at h
    rw [Option.map_none, ← h]
  | some c => rfl

/-- The Bird merge touches only the two Bird secrets. -/
theorem mergeBirdConfig_eq {new : NewServerConfiguration}
    (h : new.birdConfig = request.birdConfig.map .toValue) :
    mergeBirdConfig existing request new =
      { new with
        birdConfig := request.birdConfig.map fun c => .toValue
          { c with
            birdAccessKey :=
              storedSecret existing .birdAccessKey c.birdAccessKey
            birdWebhookSigningKey :=
              storedSecret existing .birdWebhookSigningKey c.birdWebhookSigningKey } } := by
  rw [mergeBirdConfig]
  cases hconfig : request.birdConfig with
  | none =>
    rw [hconfig, Option.map_none] at h
    rw [Option.map_none, ← h]
  | some c => rfl

/-- The Telnyx merge touches only the two Telnyx secrets. -/
theorem mergeTelnyxConfig_eq {new : NewServerConfiguration}
    (h : new.telnyxConfig = request.telnyxConfig.map .toValue) :
    mergeTelnyxConfig existing request new =
      { new with
        telnyxConfig := request.telnyxConfig.map fun c => .toValue
          { c with
            telnyxApiKey :=
              storedSecret existing .telnyxApiKey c.telnyxApiKey
            telnyxWebhookSigningKey :=
              storedSecret existing .telnyxWebhookSigningKey c.telnyxWebhookSigningKey } } := by
  rw [mergeTelnyxConfig]
  cases hconfig : request.telnyxConfig with
  | none =>
    rw [hconfig, Option.map_none] at h
    rw [Option.map_none, ← h]
  | some c => rfl

/-- The Stripe merge touches only the two Stripe secrets. -/
theorem mergeStripeConfig_eq {new : NewServerConfiguration}
    (h : new.stripeConfig = request.stripeConfig.map .toValue) :
    mergeStripeConfig existing request new =
      { new with
        stripeConfig := request.stripeConfig.map fun c => .toValue
          { c with
            stripeSecretKey :=
              storedSecret existing .stripeSecretKey c.stripeSecretKey
            stripeWebhookSigningSecret :=
              storedSecret existing .stripeWebhookSigningSecret c.stripeWebhookSigningSecret } } := by
  rw [mergeStripeConfig]
  cases hconfig : request.stripeConfig with
  | none =>
    rw [hconfig, Option.map_none] at h
    rw [Option.map_none, ← h]
  | some c => rfl

/-- The secrets of a new version, all at once: each is merged on its own. -/
theorem buildConfiguration_secret {user : User}
    (hedit : holdsExactly user .editClusterSettings = true) (s : Secret) :
    (buildConfiguration existing request user).secret s =
      (request.secret s).map (storedSecret existing s) := by
  rw [buildConfiguration, mergeFacebookAuthConfig_eq existing request rfl rfl,
    mergeXTwitterAuthConfig_eq existing request rfl (by rw [Option.bind_map]; rfl),
    mergeWebPushConfig_eq existing request rfl, mergeTwilioConfig_eq existing request rfl,
    mergeBirdConfig_eq existing request rfl, mergeTelnyxConfig_eq existing request rfl,
    mergeStripeConfig_eq existing request rfl]
  cases s with
  | clusterSharedSecret =>
    simp only [NewServerConfiguration.secret, ServerConfiguration.secret,
      carriedClusterResources, hedit, if_true, readColumn_map_toValue_comp, Option.map_map]
    rfl
  | facebookAppSecret | xTwitterClientSecret =>
    simp only [NewServerConfiguration.secret, ServerConfiguration.secret,
      Column.fromValue_ofOption, Option.bind_map, Option.map_bind, Function.comp_def,
      Option.map_map]
  | _ =>
    simp only [NewServerConfiguration.secret, ServerConfiguration.secret,
      readColumn_map_toValue_comp, Option.map_map]
    rfl

/-- A secret that comes back blank, or absent where none is stored, is unchanged. -/
theorem map_storedSecret_of_blanked {s : Secret}
    (h : request.secret s = (existing.secret s).map fun _ => "") :
    (request.secret s).map (storedSecret existing s) = existing.secret s := by
  rw [h]
  cases hstored : existing.secret s with
  | none => rfl
  | some value => simp [storedSecret, hstored]

end Writing

/-- Rows that differ only in their secrets, and agree on whether Stripe is usable,
are read the same. -/
theorem toProto_congr {row row' : NewServerConfiguration}
    (hsecrets : row'.withoutSecrets = row.withoutSecrets)
    (hstripe : row'.stripeUsable = row.stripeUsable) : toProto row' = toProto row := by
  rw [toProto_eq_withoutSecrets row', hsecrets, hstripe, ← toProto_eq_withoutSecrets row]

/-- Reading a configuration tells no secret, and committing any valid edit of what
was read keeps every stored secret that the edit leaves as it was read. -/
theorem configureServer_keeps_secrets (crates : ValidationCrates) (table : ServerConfigurations)
    (user : User) (config : ServerConfiguration)
    (hread : toProto table.active.toNewServerConfiguration = some config) :
    (∀ s value, config.secret s = some value → value = "") ∧
    (∀ row, row.withoutSecrets = table.active.withoutSecrets →
      row.stripeUsable = table.active.stripeUsable → toProto row = some config) ∧
    ∀ request, validateConfigureServer crates request user = .ok () →
      holdsExactly user .editClusterSettings = true →
      ∀ s, request.secret s = config.secret s →
        (configureServer crates request user table).1.active.secret s = table.active.secret s := by
  refine ⟨?_, ?_, ?_⟩
  · intro s value hvalue
    rw [toProto_secret hread s] at hvalue
    obtain ⟨_, _, rfl⟩ := Option.map_eq_some_iff.mp hvalue
    rfl
  · intro row hsecrets hstripe
    rw [toProto_congr hsecrets hstripe, hread]
  · intro request hvalid hedit s hsame
    have hbuilt := buildConfiguration_secret table.active request hedit s
    rw [toProto_secret hread s] at hsame
    rw [map_storedSecret_of_blanked table.active request hsame] at hbuilt
    rw [configureServer_of_valid request user hvalid, ← hbuilt]
    cases s <;> rfl

/-- An installation with a Stripe key and no other optional column. -/
def stripeInstallation : ServerConfigurations where
  active := { defaultServerConfiguration with
    id := 1
    stripeConfig := some (.toValue { stripeEnabled := true, stripeSecretKey := "sk_live" }) }
  nextId := 2

/-- An administrator who may edit the cluster settings. -/
def clusterAdmin : User := ⟨.array [some "ADMIN", some "EDIT_CLUSTER_SETTINGS"]⟩

/-- The round trip at an installation with a Stripe key. -/
theorem stripeInstallation_keeps_secrets :
    ∃ config, toProto stripeInstallation.active.toNewServerConfiguration = some config ∧
      (configureServer ⟨fun _ => false, fun _ => none⟩ config clusterAdmin
        stripeInstallation).1.active.secret .stripeSecretKey = some "sk_live" := by
  refine ⟨_, rfl, ?_⟩
  have hkeeps := (configureServer_keeps_secrets ⟨fun _ => false, fun _ => none⟩
    stripeInstallation clusterAdmin _ rfl).2.2 _ (by decide) (by decide) .stripeSecretKey rfl
  rw [hkeeps]
  rfl

end Rellm
