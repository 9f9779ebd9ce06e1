import Mathlib.Logic.Basic

/-! `AppConfig` with the checks of its `validate`. -/
namespace Propeller

structure GrpcConfig where
  pingIntervalSecs : UInt64
  pingTimeoutSecs : UInt64
  deriving DecidableEq, Repr

structure KeepaliveConfig where
  wsPingIntervalSecs : UInt64
  wsPongTimeoutSecs : UInt64
  grpcStreamIdleTimeoutSecs : UInt64
  deriving DecidableEq, Repr

structure ClientConfig where
  header : String
  deviceHeader : String
  enableDeviceSupport : Bool
  deviceAttributeHeaders : List String
  deriving DecidableEq, Repr

structure JwtConfig where
  issuer : String
  audience : String
  clockSkewSecs : UInt64
  hmacSecret : Option String
  deriving DecidableEq, Repr

structure AuthConfig where
  enabled : Bool
  legacyHeaderMode : Bool
  tenantClaim : String
  legacyTenant : String
  apiKeys : List String
  jwt : JwtConfig
  deriving DecidableEq, Repr

structure AppConfig where
  grpc : GrpcConfig
  keepalive : KeepaliveConfig
  client : ClientConfig
  auth : AuthConfig
  deriving DecidableEq, Repr

/-- The values of `propeller.toml`. -/
def AppConfig.shipped : AppConfig where
  grpc := ⟨30, 10⟩
  keepalive := ⟨30, 10, 40⟩
  client := ⟨"x-client-id", "x-device-id", true, ["x-os", "x-app-version"]⟩
  auth := {
    enabled := true
    legacyHeaderMode := true
    tenantClaim := "tenant_id"
    legacyTenant := "legacy"
    apiKeys := ["dev-publisher-key"]
    jwt := ⟨"propeller-dev", "propeller-clients", 30, some "change-me-dev-secret"⟩ }

/-- `if refused { anyhow::bail!(message) }` -/
def bailIf (refused : Bool) (message : String) : Except String Unit :=
  if refused then .error message else .ok ()

def AuthConfig.validate (auth : AuthConfig) : Except String Unit := do
  bailIf auth.jwt.issuer.isEmpty "auth.jwt.issuer is required when auth is enabled"
  bailIf auth.jwt.audience.isEmpty "auth.jwt.audience is required when auth is enabled"
  bailIf auth.tenantClaim.isEmpty "auth.tenant_claim must not be empty"
  bailIf (auth.jwt.hmacSecret.getD "").isEmpty "auth.jwt.hmac_secret is required in this build"

def AppConfig.validate (config : AppConfig) : Except String Unit := do
  if config.auth.enabled then
    config.auth.validate
  bailIf (config.grpc.pingIntervalSecs == 0) "grpc.ping_interval_secs must be greater than zero"
  bailIf (config.grpc.pingTimeoutSecs == 0) "grpc.ping_timeout_secs must be greater than zero"
  bailIf (config.keepalive.wsPingIntervalSecs == 0)
    "keepalive.ws_ping_interval_secs must be greater than zero"
  bailIf (config.keepalive.wsPongTimeoutSecs == 0)
    "keepalive.ws_pong_timeout_secs must be greater than zero"
  bailIf (config.keepalive.grpcStreamIdleTimeoutSecs == 0)
    "keepalive.grpc_stream_idle_timeout_secs must be greater than zero"

def defaultTenantClaim : String := "tenant_id"

def defaultLegacyTenant : String := "legacy"

/-- `JwtConfig::default` -/
def JwtConfig.default : JwtConfig := ⟨"", "", 30, none⟩

/-- `AuthConfig::default` -/
def AuthConfig.default : AuthConfig :=
  ⟨true, true, defaultTenantClaim, defaultLegacyTenant, [], .default⟩

/-- The `auth` table of a file, where any entry may be missing. -/
structure AuthConfigRaw where
  enabled : Option Bool
  legacyHeaderMode : Option Bool
  tenantClaim : Option String
  legacyTenant : Option String
  apiKeys : Option (List String)
  jwt : Option JwtConfig
  deriving DecidableEq, Repr

/-- `AuthConfig::deserialize` -/
def AuthConfigRaw.deserialize (raw : AuthConfigRaw) : AuthConfig where
  enabled := raw.enabled.getD true
  legacyHeaderMode := raw.legacyHeaderMode.getD true
  tenantClaim := raw.tenantClaim.getD defaultTenantClaim
  legacyTenant := raw.legacyTenant.getD defaultLegacyTenant
  apiKeys := raw.apiKeys.getD []
  jwt := raw.jwt.getD .default

/-- The tables of a file; none but `auth` has optional entries. -/
structure AppConfigRaw where
  grpc : GrpcConfig
  keepalive : KeepaliveConfig
  client : ClientConfig
  auth : AuthConfigRaw
  deriving DecidableEq, Repr

/-- `AppConfig::load`, from what the file was read as. -/
def AppConfig.load (file : Except String AppConfigRaw) : Except String AppConfig := do
  let raw ← file
  let config : AppConfig := ⟨raw.grpc, raw.keepalive, raw.client, raw.auth.deserialize⟩
  config.validate
  return config

theorem bind_ok {check : Except String Unit} {rest : Unit → Except String Unit} :
    (check >>= rest) = .ok () ↔ check = .ok () ∧ rest () = .ok () := by
  cases check <;> simp [bind, Except.bind]

theorem bailIf_ok : bailIf refused message = .ok () ↔ refused = false := by
  cases refused <;> simp [bailIf]

theorem AuthConfig.validate_ok_iff (auth : AuthConfig) : auth.validate = .ok () ↔
    auth.jwt.issuer ≠ "" ∧ auth.jwt.audience ≠ "" ∧ auth.tenantClaim ≠ "" ∧
      auth.jwt.hmacSecret.getD "" ≠ "" := by
  simp only [validate, bind_ok, bailIf_ok, ← Bool.not_eq_true, String.isEmpty_iff, ne_eq]

/-- No two durations are compared with each other. -/
theorem AppConfig.validate_ok_iff (config : AppConfig) : config.validate = .ok () ↔
    (config.auth.enabled = true → config.auth.validate = .ok ()) ∧
      config.grpc.pingIntervalSecs ≠ 0 ∧ config.grpc.pingTimeoutSecs ≠ 0 ∧
      config.keepalive.wsPingIntervalSecs ≠ 0 ∧ config.keepalive.wsPongTimeoutSecs ≠ 0 ∧
      config.keepalive.grpcStreamIdleTimeoutSecs ≠ 0 := by
  have nonzero (n : UInt64) : (n == 0) = false ↔ n ≠ 0 := by simp
  cases enabled : config.auth.enabled with
  | false => simp [validate, enabled, bind_ok, bailIf_ok, nonzero]
  | true => simp [validate, enabled, bind_ok, bailIf_ok, nonzero]

/-- An empty table is the default. -/
theorem AuthConfigRaw.deserialize_empty :
    (⟨none, none, none, none, none, none⟩ : AuthConfigRaw).deserialize = .default := rfl

theorem AppConfig.load_ok (h : AppConfig.load file = .ok config) :
    ∃ raw, file = .ok raw ∧ config.auth = raw.auth.deserialize ∧ config.validate = .ok () := by
  cases file with
  | error e => cases h
  | ok raw =>
    change (validate ⟨raw.grpc, raw.keepalive, raw.client, raw.auth.deserialize⟩ >>= fun _ =>
      .ok ⟨raw.grpc, raw.keepalive, raw.client, raw.auth.deserialize⟩) = .ok config at h
    generalize same : (⟨raw.grpc, raw.keepalive, raw.client, raw.auth.deserialize⟩ : AppConfig) =
      loaded at h
    cases valid : loaded.validate with
    | error e =>
      rw [valid] at h
      cases h
    | ok _ =>
      rw [valid] at h
      cases h
      exact ⟨raw, rfl, by rw [← same], valid⟩

example : AppConfig.shipped.validate = .ok () := rfl

end Propeller
