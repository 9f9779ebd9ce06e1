import PaymentProcessing.Propeller.Jwt
import Mathlib.Algebra.Group.Nat.Defs

/-! What the token check refuses although the token is good. Both sums of the time check are
on 64-bit integers, and the tenant is looked up among the members that are no fields of
`JwtClaims`. -/
namespace Propeller

/-- `+` of a build with overflow checks; none is the panic. -/
def checkedAdd (a b : UInt64) : Option UInt64 :=
  if a.toNat + b.toNat < 2 ^ 64 then some (a + b) else none

/-- `+` of a build without them. -/
def wrappingAdd (a b : UInt64) : Option UInt64 := some (a + b)

/-- The part of `validate_claims` that is about the times, with the addition of the build. -/
def validateTimes (add : UInt64 → UInt64 → Option UInt64) (now leeway : UInt64)
    (claims : JwtClaims) : Option (Except PropellerError Unit) := do
  let early : Bool ← match claims.nbf with
    | some nbf => (add now leeway).map (· < nbf)
    | none => some false
  if early then
    return .error (.unauthenticated "jwt not active yet")
  match claims.exp with
  | none => return .error (.unauthenticated "jwt exp missing")
  | some exp => (add exp leeway).map fun bound => refuse (now > bound) (.unauthenticated "jwt expired")

/-- The issuer and the audience are the configured ones. -/
def Addressed (config : AuthConfig) (claims : JwtClaims) : Prop :=
  claims.iss = some config.jwt.issuer ∧ audMatches claims.aud config.jwt.audience = true

/-- The times of the claims cover this one, over the integers. -/
def InWindow (now leeway : Nat) (claims : JwtClaims) : Prop :=
  (∃ exp, claims.exp = some exp ∧ now ≤ exp.toNat + leeway) ∧
    ∀ nbf, claims.nbf = some nbf → nbf.toNat ≤ now + leeway

/-- No sum that the checks compute leaves the 64 bits. -/
def SumsFit (now leeway : UInt64) (claims : JwtClaims) : Prop :=
  (claims.nbf ≠ none → now.toNat + leeway.toNat < 2 ^ 64) ∧
    ∀ exp, claims.exp = some exp →
      (∀ nbf, claims.nbf = some nbf → nbf.toNat ≤ now.toNat + leeway.toNat) →
        exp.toNat + leeway.toNat < 2 ^ 64

theorem toNat_add_of_fits {a b : UInt64} (fits : a.toNat + b.toNat < 2 ^ 64) :
    (a + b).toNat = a.toNat + b.toNat := by
  rw [UInt64.toNat_add, Nat.mod_eq_of_lt fits]

theorem checkedAdd_of_fits {a b : UInt64} (fits : a.toNat + b.toNat < 2 ^ 64) :
    checkedAdd a b = some (a + b) := if_pos fits

theorem checkedAdd_some {a b sum : UInt64} (h : checkedAdd a b = some sum) :
    a.toNat + b.toNat < 2 ^ 64 ∧ sum = a + b := by
  unfold checkedAdd at h
  split at h
  · rename_i fits
    exact ⟨fits, (Option.some.inj h).symm⟩
  · contradiction

/-- `validateClaims` is the check of the identities and then that of the times. -/
theorem validateClaims_eq (config : AuthConfig) (now : UInt64) (claims : JwtClaims) :
    some (validateClaims (some now) config claims) =
      if claims.iss ≠ some config.jwt.issuer then
        some (.error (.unauthenticated "invalid jwt issuer"))
      else if audMatches claims.aud config.jwt.audience = false then
        some (.error (.unauthenticated "invalid jwt audience"))
      else validateTimes wrappingAdd now config.jwt.clockSkewSecs claims := by
  unfold validateClaims validateTimes wrappingAdd
  by_cases issuer : claims.iss = some config.jwt.issuer
  · cases audience : audMatches claims.aud config.jwt.audience with
    | false => simp [issuer, refuse, bind, Except.bind]
    | true =>
      cases claims.nbf with
      | none => cases claims.exp <;> simp [issuer, refuse, bind, Except.bind]
      | some nbf =>
        by_cases early : now + config.jwt.clockSkewSecs < nbf
        · cases claims.exp <;> simp [issuer, early, refuse, bind, Except.bind]
        · cases claims.exp <;> simp [issuer, early, refuse, bind, Except.bind]
  · simp [issuer, refuse, bind, Except.bind]

theorem sumsFit_of_computed (computed : validateTimes checkedAdd now leeway claims = some verdict) :
    SumsFit now leeway claims := by
  unfold validateTimes at computed
  cases begins : claims.nbf with
  | none =>
    refine ⟨fun present => absurd begins present, fun exp ends _ => ?_⟩
    simp only [begins, ends, Option.bind_eq_bind, Option.bind_some, Bool.false_eq_true, if_false,
      Option.map_eq_some_iff] at computed
    obtain ⟨_, added, -⟩ := computed
    exact (checkedAdd_some added).1
  | some nbf =>
    simp only [begins, Option.bind_eq_bind, Option.bind_eq_some_iff,
      Option.map_eq_some_iff] at computed
    obtain ⟨_, ⟨sum, added, rfl⟩, computed⟩ := computed
    obtain ⟨fits, rfl⟩ := checkedAdd_some added
    refine ⟨fun _ => fits, fun exp ends active => ?_⟩
    have active : ¬ now + leeway < nbf := by
      rw [UInt64.not_lt, UInt64.le_iff_toNat_le, toNat_add_of_fits fits]
      exact active nbf begins
    simp only [ends, active, decide_false, Bool.false_eq_true, if_false,
      Option.map_eq_some_iff] at computed
    obtain ⟨_, added, -⟩ := computed
    exact (checkedAdd_some added).1

theorem computed_of_sumsFit (fit : SumsFit now leeway claims) :
    ∃ verdict, validateTimes checkedAdd now leeway claims = some verdict := by
  obtain ⟨first, second⟩ := fit
  unfold validateTimes
  cases begins : claims.nbf with
  | none =>
    cases ends : claims.exp with
    | none => exact ⟨_, rfl⟩
    | some exp =>
      have fits := second exp ends (by simp [begins])
      exact ⟨_, by simp only [checkedAdd_of_fits fits]; rfl⟩
  | some nbf =>
    have fits := first (by simp [begins])
    simp only [checkedAdd_of_fits fits]
    by_cases early : now + leeway < nbf
    · exact ⟨_, by simp only [Option.map_some, early]; rfl⟩
    · cases ends : claims.exp with
      | none => exact ⟨_, by simp only [Option.map_some, early]; rfl⟩
      | some exp =>
        have reached : nbf.toNat ≤ now.toNat + leeway.toNat := by
          rw [UInt64.not_lt, UInt64.le_iff_toNat_le, toNat_add_of_fits fits] at early
          exact early
        have fits := second exp ends (by simpa [begins] using reached)
        exact ⟨_, by simp only [Option.map_some, early, checkedAdd_of_fits fits]; rfl⟩

/-- The verdict of the wrapping sums, whatever they are. -/
theorem validateTimes_wrapping : validateTimes wrappingAdd now leeway claims = some (.ok ()) ↔
    (∃ exp, claims.exp = some exp ∧ now ≤ exp + leeway) ∧
      ∀ nbf, claims.nbf = some nbf → nbf ≤ now + leeway := by
  unfold validateTimes wrappingAdd
  cases begins : claims.nbf with
  | none => cases ends : claims.exp <;> simp [refuse_ok]
  | some nbf =>
    by_cases early : now + leeway < nbf
    · have late : ¬ nbf ≤ now + leeway := UInt64.not_le.mpr early
      simp [early, late]
    · have reached : nbf ≤ now + leeway := UInt64.not_lt.mp early
      cases ends : claims.exp <;> simp [early, reached, refuse_ok]

/-- Sums that fit are compared as integers are. -/
theorem inWindow_iff_of_sumsFit (fit : SumsFit now leeway claims) :
    validateTimes wrappingAdd now leeway claims = some (.ok ()) ↔
      InWindow now.toNat leeway.toNat claims := by
  rw [validateTimes_wrapping, InWindow, and_comm, and_comm (a := ∃ _, _)]
  have active : (∀ nbf, claims.nbf = some nbf → nbf ≤ now + leeway) ↔
      ∀ nbf, claims.nbf = some nbf → nbf.toNat ≤ now.toNat + leeway.toNat := by
    refine forall_congr' fun nbf => imp_congr_right fun begins => ?_
    rw [UInt64.le_iff_toNat_le, toNat_add_of_fits (fit.1 (by simp [begins]))]
  rw [active]
  refine and_congr_right fun active => exists_congr fun exp => and_congr_right fun ends => ?_
  rw [UInt64.le_iff_toNat_le, toNat_add_of_fits (fit.2 exp ends active)]

/-- The time check as it is meant: no sum overflows, and what is accepted is in its window. -/
def TimesExact (config : AuthConfig) (now : UInt64) (claims : JwtClaims) : Prop :=
  (∃ verdict, validateTimes checkedAdd now config.jwt.clockSkewSecs claims = some verdict) ∧
    (validateTimes wrappingAdd now config.jwt.clockSkewSecs claims = some (.ok ()) ↔
      InWindow now.toNat config.jwt.clockSkewSecs.toNat claims)

theorem times_exact_iff (config : AppConfig) (now : UInt64) (claims : JwtClaims) :
    TimesExact config.auth now claims ↔ SumsFit now config.auth.jwt.clockSkewSecs claims := by
  constructor
  · intro exact
    obtain ⟨_, computed⟩ := exact.1
    exact sumsFit_of_computed computed
  · intro fit
    exact ⟨computed_of_sumsFit fit, inWindow_iff_of_sumsFit fit⟩

/-- The claims of a token without end: its expiry is the largest number. -/
def endless : JwtClaims where
  sub := some "user_1"
  exp := some 18446744073709551615
  nbf := none
  iss := some "propeller-dev"
  aud := some (.string "propeller-clients")
  clientId := none
  scope := none
  scopes := none
  extra := [("tenant_id", .string "tenant_1")]

/-- The shipped configuration refuses it as expired; with overflow checks the call panics. -/
theorem endless_refused : AppConfig.shipped.validate = .ok () ∧
    InWindow 1771000000 AppConfig.shipped.auth.jwt.clockSkewSecs.toNat endless ∧
    validateClaims (some 1771000000) AppConfig.shipped.auth endless =
      .error (.unauthenticated "jwt expired") ∧
    validateTimes checkedAdd 1771000000 AppConfig.shipped.auth.jwt.clockSkewSecs endless = none ∧
    ¬ TimesExact AppConfig.shipped.auth 1771000000 endless := by
  have panics : validateTimes checkedAdd 1771000000 AppConfig.shipped.auth.jwt.clockSkewSecs
      endless = none := rfl
  refine ⟨rfl, ⟨⟨_, rfl, by decide⟩, fun nbf present => by contradiction⟩, rfl, panics, ?_⟩
  rintro ⟨⟨verdict, computed⟩, -⟩
  exact absurd (panics.symm.trans computed) (by simp)

theorem validateClaims_ok_iff : validateClaims (some now) config claims = .ok () ↔
    Addressed config claims ∧
      (∃ exp, claims.exp = some exp ∧ now ≤ exp + config.jwt.clockSkewSecs) ∧
        ∀ nbf, claims.nbf = some nbf → nbf ≤ now + config.jwt.clockSkewSecs := by
  rw [← Option.some_inj, validateClaims_eq, Addressed, ← validateTimes_wrapping]
  by_cases issuer : claims.iss = some config.jwt.issuer
  · cases audience : audMatches claims.aud config.jwt.audience <;> simp [issuer]
  · simp [issuer]

section Members
variable {α : Type} {members : List (String × Value)}

/-- A field reads what the claim of its name states. -/
theorem field_of_claim {read : Value → Option α}
    (decoded : JwtClaims.field read members name = some field)
    (stated : claim members name = some value) : field = read value := by
  cases field with
  | none => exact absurd ((claim_of_absent_field decoded).symm.trans stated) (by simp)
  | some a =>
    obtain ⟨other, present, reads⟩ := claim_of_field decoded
    cases present.symm.trans stated
    exact reads.symm

theorem field_of_no_claim {read : Value → Option α}
    (decoded : JwtClaims.field read members name = some field)
    (absent : claim members name = none) : field = none := by
  cases field with
  | none => rfl
  | some a =>
    obtain ⟨_, present, -⟩ := claim_of_field decoded
    exact absurd (absent.symm.trans present) (by simp)

theorem get_of_claim {claims : JwtClaims}
    (extra : claims.extra = members.filter fun member => !JwtClaims.fieldNames.contains member.1)
    (stated : claim members name = some value) :
    claims.get name = if name ∈ JwtClaims.fieldNames then none else some value := by
  rw [JwtClaims.get_eq extra]
  unfold claim at stated
  split at stated
  · contradiction
  · contradiction
  · rename_i last
    rw [last, ← stated]
    rfl

end Members

theorem constantTimeEq_self (text : List UInt8) : constantTimeEq text text = true := by
  have same : ∀ pair ∈ text.zip text, pair.1 = pair.2 := by
    induction text with
    | nil => simp
    | cons b rest ih => simpa using ih
  have folded := (foldl_or_eq_zero (text.zip text) 0).mpr ⟨rfl, same⟩
  simp [constantTimeEq, folded]

theorem Parts.splitOn_text {parts : Parts} (free : parts.Dotless) :
    parts.text.splitOn dot = [parts.header, parts.payload, parts.signature] := by
  have joined : parts.text = [dot].intercalate [parts.header, parts.payload, parts.signature] := by
    simp [Parts.text, Parts.signingInput, List.intercalate]
  rw [joined, List.splitOn_intercalate dot]
  · intro part member
    simp only [List.mem_cons, List.not_mem_nil, or_false] at member
    rcases member with rfl | rfl | rfl
    · exact free.1
    · exact free.2.1
    · exact free.2.2
  · simp

/-- A correctly signed token whose payload deserializes, with the configured issuer and
audience and times that cover this one, that states this tenant and a client. -/
structure Deserves (crates : Crates) (now : UInt64) (config : AuthConfig) (parts : Parts)
    (members : List (String × Value)) (tenant : String) : Prop where
  dotless : parts.Dotless
  signed : ∃ secret, config.jwt.hmacSecret = some secret ∧
    crates.urlSafeNoPad parts.signature =
      some (Hmac.hmac (fun text => (crates.sha256 text).toList) blockSize (asBytes secret)
        parts.signingInput)
  payload : ∃ bytes, crates.urlSafeNoPad parts.payload = some bytes ∧
    crates.fromSlice bytes = some (.object members)
  deserializes : JwtClaims.deserialize (.object members) ≠ none
  entitled : Entitles config.jwt now.toNat members
  tenant : claim members config.tenantClaim = some (.string tenant)
  client : claim members "client_id" ≠ none ∨ claim members "sub" ≠ none

/-- The comparisons of the time check hold of the sums as they wrap. -/
def SumsReach (now leeway : UInt64) (members : List (String × Value)) : Prop :=
  (∀ exp, claim members "exp" = some (.number (.posInt exp)) →
    now.toNat ≤ (exp.toNat + leeway.toNat) % 2 ^ 64) ∧
  ∀ nbf, claim members "nbf" = some (.number (.posInt nbf)) →
    nbf.toNat ≤ (now.toNat + leeway.toNat) % 2 ^ 64

section Decoding
variable {crates : Crates} {config : AuthConfig} {claims : JwtClaims}
  {members : List (String × Value)}

theorem decodeAndValidateHs256_text (clock : Option UInt64) {parts : Parts} (free : parts.Dotless)
    (configured : config.jwt.hmacSecret = some secret)
    (signed : crates.urlSafeNoPad parts.signature =
      some (hmacSha256 crates.sha256 (asBytes secret) parts.signingInput).toList)
    (payload : crates.urlSafeNoPad parts.payload = some bytes)
    (parsed : crates.fromSlice bytes = some value)
    (deserialized : JwtClaims.deserialize value = some claims) :
    decodeAndValidateHs256 crates clock config parts.text =
      (validateClaims clock config claims).map fun _ => claims := by
  have matching := constantTimeEq_self
    (hmacSha256 crates.sha256 (asBytes secret) parts.signingInput).toList
  unfold Parts.signingInput at signed matching
  unfold decodeAndValidateHs256
  simp only [configured, Parts.splitOn_text free, signed, matching, payload, parsed, deserialized,
    Option.bind_some, Bool.not_true, refuse, Bool.false_eq_true, if_false]
  cases validateClaims clock config claims <;> rfl

/-- The claims of a good token meet the check as far as their sums reach. -/
theorem valid_iff_sumsReach (deserialized : JwtClaims.deserialize (.object members) = some claims)
    (entitled : Entitles config.jwt now.toNat members) :
    validateClaims (some now) config claims = .ok () ↔
      SumsReach now config.jwt.clockSkewSecs members := by
  obtain ⟨_, ⟨⟩, _, hexp, hnbf, hiss, haud, _⟩ := JwtClaims.deserialize_ok deserialized
  obtain ⟨exp, ends, -⟩ := entitled.unexpired
  have expiry : claims.exp = some exp := field_of_claim hexp ends
  have addressed : Addressed config claims := by
    refine ⟨field_of_claim hiss entitled.issuer, ?_⟩
    rcases entitled.audience with single | ⟨list, several, member⟩
    · rw [field_of_claim haud single]
      simp [audMatches]
    · rw [field_of_claim haud several]
      exact List.any_eq_true.mpr ⟨_, member, by simp [Value.asStr]⟩
  have later : (∃ other, claims.exp = some other ∧ now ≤ other + config.jwt.clockSkewSecs) ↔
      ∀ other, claim members "exp" = some (.number (.posInt other)) →
        now.toNat ≤ (other.toNat + config.jwt.clockSkewSecs.toNat) % 2 ^ 64 := by
    simp only [expiry, ends, Option.some.injEq, Value.number.injEq, Number.posInt.injEq,
      exists_eq_left', forall_eq', UInt64.le_iff_toNat_le, UInt64.toNat_add]
  have earlier : (∀ nbf, claims.nbf = some nbf → nbf ≤ now + config.jwt.clockSkewSecs) ↔
      ∀ nbf, claim members "nbf" = some (.number (.posInt nbf)) →
        nbf.toNat ≤ (now.toNat + config.jwt.clockSkewSecs.toNat) % 2 ^ 64 := by
    rcases entitled.active with absent | ⟨nbf, begins, -⟩
    · simp [field_of_no_claim hnbf absent, absent]
    · have start : claims.nbf = some nbf := field_of_claim hnbf begins
      simp only [start, begins, Option.some.injEq, Value.number.injEq, Number.posInt.injEq,
        forall_eq', UInt64.le_iff_toNat_le, UInt64.toNat_add]
  rw [validateClaims_ok_iff, later, earlier, SumsReach]
  exact and_iff_right addressed

/-- The identity that a token states is found in its fields. -/
theorem client_of_claims (hsub : JwtClaims.field Value.asStr members "sub" = some sub)
    (hclient : JwtClaims.field Value.asStr members "client_id" = some clientId)
    (stated : claim members "client_id" ≠ none ∨ claim members "sub" ≠ none) :
    ∃ chosen, (clientId <|> sub) = some chosen := by
  cases clientId with
  | some named => exact ⟨named, rfl⟩
  | none =>
    cases sub with
    | some subject => exact ⟨subject, rfl⟩
    | none =>
      rcases stated with client | subject
      · exact absurd (claim_of_absent_field hclient) client
      · exact absurd (claim_of_absent_field hsub) subject

end Decoding

/-- A good token is accepted for its tenant exactly when the tenant claim has a name that is
no field, and neither sum wraps below its bound. -/
theorem deserving_accepted_iff (crates : Crates) (now : UInt64) (config : AuthConfig)
    (parts : Parts) (members : List (String × Value)) (tenant : String)
    (deserves : Deserves crates now config parts members tenant) :
    (∃ ctx, decodeJwt crates (some now) config parts.text = .ok ctx ∧ ctx.tenantId = tenant) ↔
      config.tenantClaim ∉ JwtClaims.fieldNames ∧
        SumsReach now config.jwt.clockSkewSecs members := by
  obtain ⟨claims, deserialized⟩ := Option.ne_none_iff_exists'.mp deserves.deserializes
  obtain ⟨secret, configured, signed⟩ := deserves.signed
  obtain ⟨bytes, payload, parsed⟩ := deserves.payload
  rw [← toList_hmacSha256] at signed
  have decoded := decodeAndValidateHs256_text (some now) deserves.dotless configured
    signed payload parsed deserialized
  obtain ⟨_, ⟨⟩, hsub, _, _, _, _, hclient, extra⟩ := JwtClaims.deserialize_ok deserialized
  have found := get_of_claim extra deserves.tenant
  obtain ⟨client, chosen⟩ := client_of_claims hsub hclient deserves.client
  rw [← valid_iff_sumsReach deserialized deserves.entitled]
  unfold decodeJwt
  rw [decoded]
  cases valid : validateClaims (some now) config claims with
  | error e => simp [Except.map, bind, Except.bind]
  | ok _ =>
    by_cases taken : config.tenantClaim ∈ JwtClaims.fieldNames
    · rw [if_pos taken] at found
      simp [Except.map, bind, Except.bind, found, taken]
    · rw [if_neg taken] at found
      simp [Except.map, bind, Except.bind, found, taken, chosen, valueToString, pure, Except.pure]

/-- The token of `sampleHeaders`. -/
def sampleParts : Parts where
  header := asBytes "eyJhbGciOiJIUzI1NiIsInR5cCI6IkpXVCJ9"
  payload := asBytes ("eyJhdWQiOiJhdWRpZW5jZSIsImV4cCI6NDEwMjQ0NDgwMCwiaXNzIjoiaXNzdWVyIiwic3ViIjoi" ++
    "dXNlcl8xIiwidGVuYW50X2lkIjoidGVuYW50XzEifQ")
  signature := asBytes "weytUYhvg4duZZHLxnrkZCqQxBctstlbCDyif2468rk"

def sampleMembers : List (String × Value) :=
  [("aud", .string "audience"), ("exp", .number (.posInt 4102444800)), ("iss", .string "issuer"),
    ("sub", .string "user_1"), ("tenant_id", .string "tenant_1")]

/-- The configuration of the sample token with another name for the tenant claim. -/
def sampleClaimed (tenantClaim : String) : AppConfig :=
  { AppConfig.shipped with auth := { sampleAuth with tenantClaim := tenantClaim } }

set_option maxRecDepth 8000 in
theorem sample_deserves (tenantClaim : String)
    (stated : claim sampleMembers tenantClaim = some (.string tenant)) :
    Deserves sampleCrates 1771000000 (sampleClaimed tenantClaim).auth sampleParts sampleMembers
      tenant where
  dotless := by
    unfold Parts.Dotless
    decide +kernel
  signed := ⟨"secret", rfl, by decide +kernel⟩
  payload := by
    obtain ⟨bytes, payload⟩ : ∃ bytes, sampleCrates.urlSafeNoPad sampleParts.payload = some bytes :=
      Option.isSome_iff_exists.mp (by decide +kernel)
    exact ⟨bytes, payload, rfl⟩
  deserializes := by simp [JwtClaims.deserialize, sampleMembers, JwtClaims.field, Value.asStr,
    Value.asUsize]
  entitled := ⟨rfl, Or.inl rfl, ⟨4102444800, rfl, Nat.le_add_right_of_le (by decide)⟩, Or.inl rfl⟩
  tenant := stated
  client := Or.inr (by simp [claim, sampleMembers])

/-- The sample token is accepted for the tenant that its own claim states. -/
theorem sample_accepted : ∃ ctx, decodeJwt sampleCrates (some 1771000000)
    (sampleClaimed "tenant_id").auth sampleParts.text = .ok ctx ∧ ctx.tenantId = "tenant_1" :=
  (deserving_accepted_iff _ _ _ _ _ _ (sample_deserves "tenant_id" rfl)).mpr
    ⟨by decide, by rintro _ ⟨⟩; decide, by rintro _ ⟨⟩⟩

set_option maxRecDepth 8000 in
/-- With the subject as the tenant the same token states its tenant and is refused. -/
theorem sample_refused : (sampleClaimed "sub").validate = .ok () ∧
    Deserves sampleCrates 1771000000 (sampleClaimed "sub").auth sampleParts sampleMembers
      "user_1" ∧
    decodeJwt sampleCrates (some 1771000000) (sampleClaimed "sub").auth sampleParts.text =
      .error (.unauthenticated "missing tenant claim: sub") :=
  ⟨rfl, sample_deserves _ rfl, by decide +kernel⟩

end Propeller
