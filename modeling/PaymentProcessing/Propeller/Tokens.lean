import PaymentProcessing.Propeller.FrontEnds
import PaymentProcessing.Propeller.Acceptance

/-! Which tokens are accepted, and for whom. The header of a token counts only as text under
its signature, and a claim that is the empty string is an identity like any other. -/
namespace Propeller

/-- The third part is the signature of the first two. -/
def Signed (crates : Crates) (config : AuthConfig) (parts : Parts) : Prop :=
  ∃ secret, config.jwt.hmacSecret = some secret ∧
    crates.urlSafeNoPad parts.signature =
      some (Hmac.hmac (fun text => (crates.sha256 text).toList) blockSize (asBytes secret)
        parts.signingInput)

/-- The payload decodes to these claims. -/
def Carries (crates : Crates) (payload : List UInt8) (claims : JwtClaims) : Prop :=
  ∃ bytes value, crates.urlSafeNoPad payload = some bytes ∧ crates.fromSlice bytes = some value ∧
    JwtClaims.deserialize value = some claims

/-- The header decodes to a JSON object whose `alg` is HS256. -/
def NamesHs256 (crates : Crates) (header : List UInt8) : Prop :=
  ∃ bytes members, crates.urlSafeNoPad header = some bytes ∧
    crates.fromSlice bytes = some (.object members) ∧
    claim members "alg" = some (.string "HS256")

theorem accepted_of_parts {parts : Parts} (free : parts.Dotless) (signed : Signed crates config parts)
    (carries : Carries crates parts.payload claims)
    (valid : validateClaims clock config claims = .ok ()) :
    decodeAndValidateHs256 crates clock config parts.text = .ok claims := by
  obtain ⟨secret, configured, signature⟩ := signed
  obtain ⟨bytes, value, payload, parsed, deserialized⟩ := carries
  rw [← toList_hmacSha256] at signature
  rw [decodeAndValidateHs256_text clock free configured signature payload parsed deserialized, valid]
  rfl

theorem parts_of_accepted (h : decodeAndValidateHs256 crates clock config token = .ok claims) :
    ∃ parts, token = Parts.text parts ∧ parts.Dotless ∧ Signed crates config parts ∧
      Carries crates parts.payload claims ∧ validateClaims clock config claims = .ok () := by
  obtain ⟨parts, secret, bytes, value, whole, free, configured, signature, payload, parsed,
    deserialized, valid⟩ := decodeAndValidateHs256_ok h
  rw [toList_hmacSha256] at signature
  exact ⟨parts, whole, free, ⟨secret, configured, signature⟩,
    ⟨bytes, value, payload, parsed, deserialized⟩, valid⟩

/-- A token is accepted for its signature and its claims, whatever its header says. -/
theorem accepted_iff (crates : Crates) (clock : Option UInt64) (config : AuthConfig)
    (token : List UInt8) (claims : JwtClaims) :
    decodeAndValidateHs256 crates clock config token = .ok claims ↔
      ∃ parts, token = Parts.text parts ∧ parts.Dotless ∧ Signed crates config parts ∧
        Carries crates parts.payload claims ∧ validateClaims clock config claims = .ok () := by
  constructor
  · exact parts_of_accepted
  · rintro ⟨parts, rfl, free, signed, carries, valid⟩
    exact accepted_of_parts free signed carries valid

/-- A token with the texts that its parts encode, what these state, and the digests under its
signature. -/
structure SampleToken where
  parts : Parts
  headerText : String
  header : List (String × Value)
  payloadText : String
  payload : List (String × Value)
  inner : Vector UInt8 32
  outer : Vector UInt8 32

/-- The crates on one token signed with `secret`. -/
def SampleToken.crates (token : SampleToken) : Crates where
  urlSafeNoPad text :=
    if text = token.parts.header then some (asBytes token.headerText)
    else if text = token.parts.payload then some (asBytes token.payloadText)
    else if text = token.parts.signature then some token.outer.toList
    else none
  fromSlice bytes :=
    if bytes = asBytes token.headerText then some (.object token.header)
    else if bytes = asBytes token.payloadText then some (.object token.payload)
    else none
  sha256 text := if text.length = 96 then token.outer else token.inner

/-- The sample claims under a header that names the algorithm `none`. -/
def noneToken : SampleToken where
  parts := ⟨asBytes "eyJhbGciOiJub25lIn0", sampleParts.payload,
    asBytes "UZaWPG1DeBmFyWp72JtjaNMO_4lkAvSwvTqO-aYtrgE"⟩
  headerText := "\x7b\"alg\":\"none\"\x7d"
  header := [("alg", .string "none")]
  payloadText := "\x7b\"aud\":\"audience\",\"exp\":4102444800,\"iss\":\"issuer\"," ++
    "\"sub\":\"user_1\",\"tenant_id\":\"tenant_1\"\x7d"
  payload := sampleMembers
  inner := #v[43, 180, 228, 57, 73, 139, 94, 40, 217, 188, 87, 241, 224, 78, 106, 33, 118, 193, 216,
    45, 142, 93, 190, 119, 140, 226, 204, 178, 72, 145, 183, 240]
  outer := #v[81, 150, 150, 60, 109, 67, 120, 25, 133, 201, 106, 123, 216, 155, 99, 104, 211, 14, 255,
    137, 100, 2, 244, 176, 189, 58, 142, 249, 166, 45, 174, 1]

set_option maxRecDepth 8000 in
/-- Signed with the secret it is accepted, though it does not name HS256. -/
theorem none_accepted : (∃ claims, decodeAndValidateHs256 noneToken.crates (some 1771000000)
      sampleAuth noneToken.parts.text = .ok claims) ∧
    ¬ NamesHs256 noneToken.crates noneToken.parts.header := by
  constructor
  · have accepted : (decodeAndValidateHs256 noneToken.crates (some 1771000000) sampleAuth
        noneToken.parts.text).isOk = true := by
      decide +kernel
    cases decoded : decodeAndValidateHs256 noneToken.crates (some 1771000000) sampleAuth
        noneToken.parts.text with
    | ok claims => exact ⟨claims, rfl⟩
    | error e =>
      rw [decoded] at accepted
      cases accepted
  · rintro ⟨bytes, members, decoded, parsed, named⟩
    have text : noneToken.crates.urlSafeNoPad noneToken.parts.header =
        some (asBytes noneToken.headerText) := by simp [SampleToken.crates]
    cases text.symm.trans decoded
    have object : noneToken.crates.fromSlice (asBytes noneToken.headerText) =
        some (.object noneToken.header) := by simp [SampleToken.crates]
    cases object.symm.trans parsed
    simp [claim, noneToken] at named

/-- The payload states this tenant, under a claim that is no field, and this client. -/
def States (crates : Crates) (config : AuthConfig) (payload : List UInt8) (tenant client : String) :
    Prop :=
  ∃ bytes members, crates.urlSafeNoPad payload = some bytes ∧
    crates.fromSlice bytes = some (.object members) ∧
    config.tenantClaim ∉ JwtClaims.fieldNames ∧
    (∃ value, claim members config.tenantClaim = some value ∧ valueToString value = some tenant) ∧
    (claim members "client_id" = some (.string client) ∨
      claim members "client_id" = none ∧ claim members "sub" = some (.string client))

section Identity
variable {crates : Crates} {clock : Option UInt64} {config : AuthConfig} {claims : JwtClaims}
  {members : List (String × Value)} {parts : Parts}

theorem Parts.eq_of_text {parts other : Parts} (free : parts.Dotless) (free' : other.Dotless)
    (same : parts.text = other.text) : parts = other := by
  have cut := congrArg (List.splitOn dot) same
  rw [Parts.splitOn_text free, Parts.splitOn_text free'] at cut
  cases parts
  cases other
  simp only [List.cons.injEq, and_true] at cut
  obtain ⟨rfl, rfl, rfl⟩ := cut
  rfl

/-- The tenant claim is found where the members state it under a name that is no field. -/
theorem tenant_iff {name : String}
    (extra : claims.extra = members.filter fun member => !JwtClaims.fieldNames.contains member.1) :
    (claims.get name).bind valueToString = some tenant ↔ name ∉ JwtClaims.fieldNames ∧
      ∃ value, claim members name = some value ∧ valueToString value = some tenant := by
  constructor
  · intro found
    obtain ⟨value, present, text⟩ := Option.bind_eq_some_iff.mp found
    refine ⟨fun taken => ?_, value, claim_of_get extra present text, text⟩
    rw [JwtClaims.get_eq extra, if_pos taken] at present
    cases present
  · rintro ⟨free, value, stated, text⟩
    rw [get_of_claim extra stated, if_neg free]
    exact text

theorem client_iff (hsub : JwtClaims.field Value.asStr members "sub" = some sub)
    (hclient : JwtClaims.field Value.asStr members "client_id" = some clientId) :
    (clientId <|> sub) = some client ↔ claim members "client_id" = some (.string client) ∨
      claim members "client_id" = none ∧ claim members "sub" = some (.string client) := by
  constructor
  · exact client_of_fields hsub hclient
  · rintro (stated | ⟨absent, stated⟩)
    · rw [field_of_claim hclient stated]
      rfl
    · rw [field_of_no_claim hclient absent, field_of_claim hsub stated]
      rfl

theorem states_iff (carries : Carries crates payload claims) :
    States crates config payload tenant client ↔
      (claims.get config.tenantClaim).bind valueToString = some tenant ∧
        (claims.clientId <|> claims.sub) = some client := by
  obtain ⟨bytes, value, encoded, parsed, deserialized⟩ := carries
  obtain ⟨members, rfl, hsub, -, -, -, -, hclient, extra⟩ := JwtClaims.deserialize_ok deserialized
  rw [tenant_iff extra, client_iff hsub hclient]
  constructor
  · rintro ⟨bytes', members', encoded', parsed', free, stated, named⟩
    cases encoded.symm.trans encoded'
    cases parsed.symm.trans parsed'
    exact ⟨⟨free, stated⟩, named⟩
  · rintro ⟨⟨free, stated⟩, named⟩
    exact ⟨bytes, members, encoded, parsed, free, stated, named⟩

/-- What `decode_jwt` makes of a token that was accepted. -/
theorem decodeJwt_iff (decoded : decodeAndValidateHs256 crates clock config token = .ok claims) :
    (∃ ctx, decodeJwt crates clock config token = .ok ctx ∧ ctx.tenantId = tenant ∧
        ctx.clientId = client) ↔
      (claims.get config.tenantClaim).bind valueToString = some tenant ∧
        (claims.clientId <|> claims.sub) = some client := by
  unfold decodeJwt
  rw [decoded]
  cases named : (claims.get config.tenantClaim).bind valueToString with
  | none => simp [bind, Except.bind, named]
  | some t =>
    cases chosen : (claims.clientId <|> claims.sub) with
    | none => simp [bind, Except.bind, named, chosen]
    | some c => simp [bind, Except.bind, pure, Except.pure, named, chosen]

/-- A token is admitted for the identity that its payload states. -/
theorem decodeJwt_ok_iff (free : parts.Dotless) :
    (∃ ctx, decodeJwt crates clock config parts.text = .ok ctx ∧ ctx.tenantId = tenant ∧
        ctx.clientId = client) ↔
      (∃ claims, decodeAndValidateHs256 crates clock config parts.text = .ok claims) ∧
        States crates config parts.payload tenant client := by
  cases decoded : decodeAndValidateHs256 crates clock config parts.text with
  | error e => simp [decodeJwt, decoded, bind, Except.bind]
  | ok claims =>
    obtain ⟨other, same, free', -, carries, -⟩ := parts_of_accepted decoded
    obtain rfl := Parts.eq_of_text free free' same
    rw [decodeJwt_iff decoded, ← states_iff carries]
    exact ⟨fun states => ⟨⟨claims, rfl⟩, states⟩, fun both => both.2⟩

end Identity

theorem legacyContext_ok (h : legacyContext clientId legacyTenant = .ok ctx) :
    ctx = ⟨clientId, legacyTenant, clientId, []⟩ ∧ clientId ≠ "" := by
  obtain ⟨named, made⟩ := refuse_bind_ok.mp h
  cases made
  exact ⟨rfl, by simpa using named⟩

section Named
variable {crates : Crates} {clock : Option UInt64} {config : AuthConfig}
  {bearer : Option (List UInt8)} {legacy : Except PropellerError AuthContext}

theorem authenticate_of_token (enabled : config.enabled = true)
    (decoded : decodeJwt crates clock config token = .ok ctx) :
    authenticate crates clock config (some token) legacy missing = .ok (ctx, false) := by
  simp [authenticate, enabled, decoded, Except.map]

end Named

/-- With auth on and a legacy tenant that has a name, every identity that a request is admitted
under has one, exactly when its bearer token, if accepted, states no empty one. -/
theorem identities_named_iff (crates : Crates) (clock : Option UInt64) (config : AppConfig)
    (headers : HeaderMap) (enabled : config.auth.enabled = true)
    (named : config.auth.legacyTenant ≠ "") :
    (∀ ctx flag,
      authenticateHttp crates clock config.auth headers config.client = .ok (ctx, flag) ∨
          authenticateGrpc crates clock config.auth headers config.client = .ok (ctx, flag) →
        ctx.tenantId ≠ "" ∧ ctx.clientId ≠ "") ↔
      ∀ parts tenant client, extractHttpBearer headers = some (Parts.text parts) → parts.Dotless →
        (∃ claims, decodeAndValidateHs256 crates clock config.auth parts.text = .ok claims) →
        States crates config.auth parts.payload tenant client → tenant ≠ "" ∧ client ≠ "" := by
  constructor
  · intro always parts tenant client bearer free accepted states
    obtain ⟨ctx, decoded, rfl, rfl⟩ := (decodeJwt_ok_iff free).mpr ⟨accepted, states⟩
    refine always ctx false (Or.inl ?_)
    rw [authenticateHttp, bearer]
    exact authenticate_of_token enabled decoded
  · intro stated ctx flag admitted
    have origin : (∃ token, extractHttpBearer headers = some token ∧
        decodeJwt crates clock config.auth token = .ok ctx) ∨
        ∃ clientId, legacyContext clientId config.auth.legacyTenant = .ok ctx := by
      cases admitted with
      | inl http =>
        exact (authenticate_origin enabled http).imp_right fun legacy => ⟨_, legacy.2.2⟩
      | inr grpc =>
        have found := authenticate_origin enabled grpc
        rw [extractGrpcBearer_eq] at found
        exact found.imp_right fun legacy => ⟨_, legacy.2.2⟩
    rcases origin with ⟨token, bearer, decoded⟩ | ⟨clientId, made⟩
    · obtain ⟨parts, rfl, free, -⟩ := decodeJwt_proves decoded
      obtain ⟨accepted, states⟩ := (decodeJwt_ok_iff free).mp ⟨ctx, decoded, rfl, rfl⟩
      exact stated parts _ _ bearer free accepted states
    · obtain ⟨rfl, client⟩ := legacyContext_ok made
      exact ⟨named, client⟩

set_option maxRecDepth 8000 in
theorem sample_identity : authenticateHttp sampleCrates (some 1771000000) sampleService.auth
      sampleHeaders sampleService.client = .ok (sampleContext, false) ∧
    sampleContext.tenantId ≠ "" ∧ sampleContext.clientId ≠ "" := by
  have admitted : authenticateHttp sampleCrates (some 1771000000) sampleService.auth sampleHeaders
      sampleService.client = .ok (sampleContext, false) := by
    decide +kernel
  refine ⟨admitted, (identities_named_iff sampleCrates (some 1771000000) sampleService sampleHeaders rfl
    (by decide)).mpr ?_ _ _ (Or.inl admitted)⟩
  -- whatever its parts, the samples know one payload
  rintro parts tenant client - - - ⟨bytes, members, -, ⟨⟩, -, ⟨value, ⟨⟩, ⟨⟩⟩, named⟩
  refine ⟨by decide, ?_⟩
  rcases named with chosen | ⟨-, subject⟩
  · cases chosen
  · cases subject
    decide

/-- A token whose tenant claim is the empty string. -/
def namelessToken : SampleToken where
  parts := ⟨sampleParts.header, asBytes ("eyJhdWQiOiJhdWRpZW5jZSIsImV4cCI6NDEwMjQ0NDgwMCwiaXNzIjoi" ++
      "aXNzdWVyIiwic3ViIjoidXNlcl8xIiwidGVuYW50X2lkIjoiIn0"),
    asBytes "4BMeeXunGzH2m4GqXUWPurCzG9XgqYH-Qg-htsP5T9Q"⟩
  headerText := "\x7b\"alg\":\"HS256\",\"typ\":\"JWT\"\x7d"
  header := [("alg", .string "HS256"), ("typ", .string "JWT")]
  payloadText := "\x7b\"aud\":\"audience\",\"exp\":4102444800,\"iss\":\"issuer\"," ++
    "\"sub\":\"user_1\",\"tenant_id\":\"\"\x7d"
  payload := [("aud", .string "audience"), ("exp", .number (.posInt 4102444800)),
    ("iss", .string "issuer"), ("sub", .string "user_1"), ("tenant_id", .string "")]
  inner := #v[220, 144, 193, 244, 127, 3, 132, 127, 145, 83, 29, 41, 5, 0, 56, 7, 84, 24, 72, 156, 75,
    182, 70, 60, 94, 185, 39, 190, 194, 198, 234, 76]
  outer := #v[224, 19, 30, 121, 123, 167, 27, 49, 246, 155, 129, 170, 93, 69, 143, 186, 176, 179, 27,
    213, 224, 169, 129, 254, 66, 15, 161, 182, 195, 249, 79, 212]

/-- The request that bears the token. -/
def SampleToken.headers (token : SampleToken) : HeaderMap :=
  [("authorization", asBytes "Bearer " ++ token.parts.text)]

set_option maxRecDepth 8000 in
/-- Its bearer is admitted for a tenant without a name. -/
theorem nameless_admitted : sampleService.validate = .ok () ∧
    sampleService.auth.enabled = true ∧ sampleService.auth.legacyTenant ≠ "" ∧
    authenticateHttp namelessToken.crates (some 1771000000) sampleService.auth namelessToken.headers
      sampleService.client = .ok (⟨"user_1", "", "user_1", []⟩, false) :=
  ⟨rfl, rfl, by decide, by decide +kernel⟩

end Propeller
