import PaymentProcessing.Hmac
import PaymentProcessing.Segments
import PaymentProcessing.Propeller.Auth

/-! What a bearer token proves. The tokens that authentication admits are described here
on the text of the header and on the members of the payload, with times as unbounded
integers; each function of `AuthService` has one lemma on what its `Ok` implies. -/
namespace Propeller

/-- The value of the last member with this name, null being the same as absent. -/
def claim (members : List (String × Value)) (name : String) : Option Value :=
  match (members.filter (·.1 = name)).getLast? with
  | some (_, .null) | none => none
  | some (_, value) => some value

/-- The three parts of a token. -/
structure Parts where
  header : List UInt8
  payload : List UInt8
  signature : List UInt8

namespace Parts

def signingInput (parts : Parts) : List UInt8 := parts.header ++ dot :: parts.payload

def text (parts : Parts) : List UInt8 := parts.signingInput ++ dot :: parts.signature

/-- No part has a dot of its own. -/
def Dotless (parts : Parts) : Prop :=
  dot ∉ parts.header ∧ dot ∉ parts.payload ∧ dot ∉ parts.signature

end Parts

/-- The Authorization value of a token: the scheme in any case, one space, the token. -/
def Bears (value token : List UInt8) : Prop :=
  ∃ scheme, eqIgnoreAsciiCase scheme (asBytes "bearer") = true ∧ value = scheme ++ space :: token

/-- The payload members entitle their bearer at this time. -/
structure Entitles (jwt : JwtConfig) (now : Nat) (members : List (String × Value)) : Prop where
  issuer : claim members "iss" = some (.string jwt.issuer)
  audience : claim members "aud" = some (.string jwt.audience) ∨
    ∃ list, claim members "aud" = some (.array list) ∧ .string jwt.audience ∈ list
  unexpired : ∃ exp, claim members "exp" = some (.number (.posInt exp)) ∧
    now ≤ exp.toNat + jwt.clockSkewSecs.toNat
  active : claim members "nbf" = none ∨ ∃ nbf, claim members "nbf" = some (.number (.posInt nbf)) ∧
    nbf.toNat ≤ now + jwt.clockSkewSecs.toNat

/-- The identity that the payload members state. -/
structure Identifies (tenantClaim : String) (members : List (String × Value)) (ctx : AuthContext) :
    Prop where
  tenant : ∃ value, claim members tenantClaim = some value ∧ valueToString value = some ctx.tenantId
  client : claim members "client_id" = some (.string ctx.clientId) ∨
    claim members "client_id" = none ∧ claim members "sub" = some (.string ctx.clientId)
  subject : claim members "sub" = some (.string ctx.subject) ∨
    claim members "sub" = none ∧ ctx.subject = ctx.clientId

/-- A token whose signature and claims admit this context. -/
def Proves (crates : Crates) (clock : Option UInt64) (config : AuthConfig) (parts : Parts)
    (ctx : AuthContext) : Prop :=
  ∃ secret now bytes members, config.jwt.hmacSecret = some secret ∧ clock = some now ∧
    crates.urlSafeNoPad parts.signature =
      some (Hmac.hmac (fun text => (crates.sha256 text).toList) blockSize (asBytes secret)
        parts.signingInput) ∧
    crates.urlSafeNoPad parts.payload = some bytes ∧
    crates.fromSlice bytes = some (.object members) ∧
    Entitles config.jwt now.toNat members ∧ Identifies config.tenantClaim members ctx

theorem foldl_or_eq_zero (pairs : List (UInt8 × UInt8)) (diff : UInt8) :
    pairs.foldl (fun diff pair => diff ||| (pair.1 ^^^ pair.2)) diff = 0 ↔
      diff = 0 ∧ ∀ pair ∈ pairs, pair.1 = pair.2 := by
  have or_zero (a b : UInt8) : a ||| b = 0 ↔ a = 0 ∧ b = 0 := by
    simp only [← UInt8.toBitVec_inj, UInt8.toBitVec_or, UInt8.toBitVec_ofNat, BitVec.or_eq_zero_iff]
  have xor_zero (a b : UInt8) : a ^^^ b = 0 ↔ a = b := by
    simp only [← UInt8.toBitVec_inj, UInt8.toBitVec_xor, UInt8.toBitVec_ofNat,
      BitVec.xor_eq_zero_iff]
  induction pairs generalizing diff with
  | nil => simp
  | cons pair rest ih =>
    simp only [List.foldl_cons, ih, or_zero, xor_zero, List.forall_mem_cons, and_assoc]

theorem eq_of_zip (lhs rhs : List UInt8) (length : lhs.length = rhs.length)
    (same : ∀ pair ∈ lhs.zip rhs, pair.1 = pair.2) : lhs = rhs := by
  induction lhs generalizing rhs with
  | nil => exact (List.length_eq_zero_iff.mp length.symm).symm
  | cons a rest ih =>
    cases rhs with
    | nil => contradiction
    | cons b others =>
      have head : a = b := same (a, b) List.mem_cons_self
      have tail := ih others (Nat.succ.inj length)
        fun pair member => same pair (List.mem_cons_of_mem _ member)
      rw [head, tail]

theorem eq_of_constantTimeEq (equal : constantTimeEq lhs rhs = true) : lhs = rhs := by
  unfold constantTimeEq at equal
  split at equal
  · contradiction
  · rename_i length
    have length : lhs.length = rhs.length := by simpa using length
    have folded := (foldl_or_eq_zero (lhs.zip rhs) 0).mp (by simpa using equal)
    exact eq_of_zip lhs rhs length folded.2

theorem toList_copyFromSlice (source : List UInt8) (fits : source.length ≤ n) :
    (copyFromSlice (.replicate n 0) source fits).toList =
      source ++ List.replicate (n - source.length) 0 := by
  simp [copyFromSlice]

/-- The block loops compute the keyed hash of their hash function. -/
theorem toList_hmacSha256 (sha256 : List UInt8 → Vector UInt8 32) (key message : List UInt8) :
    (hmacSha256 sha256 key message).toList =
      Hmac.hmac (fun text => (sha256 text).toList) blockSize key message := by
  have padded (pad : UInt8) (block : Vector UInt8 blockSize) :
      ((Vector.replicate blockSize pad).zipWith (· ^^^ ·) block).toList =
        block.toList.map (· ^^^ pad) := by
    have same := Hmac.zipWith_replicate pad block.toList
    rw [Vector.length_toList] at same
    rw [Vector.toList_zipWith, Vector.toList_replicate, same]
  unfold hmacSha256 Hmac.hmac
  simp only [padded]
  split
  · rename_i long
    rw [toList_copyFromSlice, Hmac.blockKey_of_long long]
  · rename_i short
    rw [toList_copyFromSlice, Hmac.blockKey_of_short (Nat.le_of_not_lt short)]

theorem bears_of_extractBearer (h : extractBearer value = some token) : Bears value token := by
  unfold extractBearer at h
  split at h
  · rename_i scheme first rest cut
    split at h
    · rename_i checked
      cases h
      rw [List.span_eq_takeWhile_dropWhile] at cut
      obtain ⟨taken, dropped⟩ := Prod.mk.inj cut
      have whole := List.takeWhile_append_dropWhile (p := (· ≠ space)) (l := value)
      have stopped := List.head?_dropWhile_not (· ≠ space) value
      rw [dropped] at stopped whole
      have first_space : first = space := by simpa using stopped
      rw [taken, first_space] at whole
      have checked : eqIgnoreAsciiCase scheme (asBytes "bearer") = true ∧ token ≠ [] := by
        simpa using checked
      exact ⟨scheme, checked.1, whole.symm⟩
    · contradiction
  · contradiction

theorem audMatches_ok (matched : audMatches aud expected = true) :
    aud = some (.string expected) ∨ ∃ list, aud = some (.array list) ∧ .string expected ∈ list := by
  unfold audMatches at matched
  split at matched
  · rename_i single
    exact Or.inl (by rw [eq_of_beq matched])
  · rename_i list
    obtain ⟨entry, member, same⟩ := List.any_eq_true.mp matched
    have same : entry.asStr = some expected := by simpa using same
    cases entry with
    | string text =>
      cases same
      exact Or.inr ⟨list, rfl, member⟩
    | _ => contradiction
  · contradiction

/-- Wrapping the sum only makes it smaller, so each check errs on the side of refusal. -/
theorem not_after_of_wrapped {now leeway bound : UInt64} (h : ¬ now > bound + leeway) :
    now.toNat ≤ bound.toNat + leeway.toNat := by
  have wrapped : now.toNat ≤ (bound + leeway).toNat := UInt64.le_iff_toNat_le.mp (UInt64.not_lt.mp h)
  rw [UInt64.toNat_add] at wrapped
  exact wrapped.trans (Nat.mod_le _ _)

section Fields
variable {α : Type} {read : Value → Option α} {members : List (String × Value)}

theorem claim_of_field (h : JwtClaims.field read members name = some (some a)) :
    ∃ value, claim members name = some value ∧ read value = some a := by
  unfold JwtClaims.field at h
  split at h
  · cases h
  · cases h
  · rename_i other value typed present
    obtain ⟨_, decoded, ⟨⟩⟩ := Option.map_eq_some_iff.mp h
    refine ⟨value, ?_, decoded⟩
    rw [claim, present]
    cases value with
    | null => exact absurd rfl typed
    | _ => rfl
  · contradiction

theorem claim_of_absent_field (h : JwtClaims.field read members name = some none) :
    claim members name = none := by
  unfold JwtClaims.field at h
  split at h
  · rename_i absent
    rw [claim, absent]
    rfl
  · rename_i present
    rw [claim, present]
    rfl
  · obtain ⟨_, _, ⟨⟩⟩ := Option.map_eq_some_iff.mp h
  · contradiction

/-- A claim that a field reads, in the form of both cases. -/
theorem claim_of_str (h : JwtClaims.field Value.asStr members name = some (some text)) :
    claim members name = some (.string text) := by
  obtain ⟨value, present, read⟩ := claim_of_field h
  cases value with
  | string _ =>
    cases read
    exact present
  | _ => contradiction

theorem claim_of_usize (h : JwtClaims.field Value.asUsize members name = some (some n)) :
    claim members name = some (.number (.posInt n)) := by
  obtain ⟨value, present, read⟩ := claim_of_field h
  match value, read with
  | .number (.posInt _), rfl => exact present

end Fields

theorem JwtClaims.deserialize_ok (h : JwtClaims.deserialize value = some claims) :
    ∃ members, value = .object members ∧
      field Value.asStr members "sub" = some claims.sub ∧
      field Value.asUsize members "exp" = some claims.exp ∧
      field Value.asUsize members "nbf" = some claims.nbf ∧
      field Value.asStr members "iss" = some claims.iss ∧
      field some members "aud" = some claims.aud ∧
      field Value.asStr members "client_id" = some claims.clientId ∧
      claims.extra = members.filter fun member => !fieldNames.contains member.1 := by
  cases value with
  | object members =>
    simp only [deserialize, Option.bind_eq_bind, Option.bind_eq_some_iff, Option.pure_def,
      Option.some.injEq] at h
    obtain ⟨sub, hsub, exp, hexp, nbf, hnbf, iss, hiss, aud, haud, client, hclient, scope, hscope,
      scopes, hscopes, rfl⟩ := h
    exact ⟨members, rfl, hsub, hexp, hnbf, hiss, haud, hclient, rfl⟩
  | _ => contradiction

/-- The left-over members answer for every name but those of the fields. -/
theorem JwtClaims.get_eq {claims : JwtClaims} {members : List (String × Value)}
    (extra : claims.extra = members.filter fun member => !JwtClaims.fieldNames.contains member.1)
    (name : String) : claims.get name =
      if name ∈ JwtClaims.fieldNames then none
      else ((members.filter (·.1 = name)).getLast?).map (·.2) := by
  have split : claims.extra.filter (·.1 = name) =
      if name ∈ JwtClaims.fieldNames then [] else members.filter (·.1 = name) := by
    rw [extra, List.filter_filter]
    split
    · rename_i taken
      refine List.filter_eq_nil_iff.mpr fun member _ both => ?_
      simp only [Bool.and_eq_true, decide_eq_true_eq, Bool.not_eq_true', List.contains_eq_mem,
        decide_eq_false_iff_not] at both
      exact both.2 (both.1 ▸ taken)
    · rename_i free
      refine List.filter_congr fun member _ => ?_
      by_cases hit : member.1 = name
      · simp [hit, free]
      · simp [hit]
  rw [JwtClaims.get, split]
  split <;> rfl

/-- The tenant claim is looked up among the members that are no fields. -/
theorem claim_of_get {claims : JwtClaims}
    (extra : claims.extra = members.filter fun member => !JwtClaims.fieldNames.contains member.1)
    (found : claims.get name = some value) (text : valueToString value = some t) :
    claim members name = some value := by
  rw [JwtClaims.get_eq extra] at found
  split at found
  · contradiction
  · obtain ⟨⟨last, v⟩, latest, same⟩ := Option.map_eq_some_iff.mp found
    obtain rfl : v = value := same
    rw [claim, latest]
    cases v with
    | null => contradiction
    | _ => rfl

theorem validateClaims_ok (h : validateClaims clock config claims = .ok ()) :
    ∃ now exp, clock = some now ∧ claims.iss = some config.jwt.issuer ∧
      audMatches claims.aud config.jwt.audience = true ∧ claims.exp = some exp ∧
      now.toNat ≤ exp.toNat + config.jwt.clockSkewSecs.toNat ∧
      ∀ nbf, claims.nbf = some nbf → nbf.toNat ≤ now.toNat + config.jwt.clockSkewSecs.toNat := by
  simp only [validateClaims, refuse_bind_ok] at h
  obtain ⟨issuer, audience, h⟩ := h
  have issuer : claims.iss = some config.jwt.issuer := by simpa using issuer
  have audience : audMatches claims.aud config.jwt.audience = true := by simpa using audience
  split at h
  · rename_i now
    -- the two checks on the times, in the source's order
    have times : (∀ nbf, claims.nbf = some nbf → ¬ now + config.jwt.clockSkewSecs < nbf) ∧
        ∃ exp, claims.exp = some exp ∧ ¬ now > exp + config.jwt.clockSkewSecs := by
      split at h
      · rename_i nbf active
        obtain ⟨early, h⟩ := refuse_bind_ok.mp h
        split at h
        · rename_i exp present
          have late := refuse_ok.mp h
          refine ⟨?_, exp, present, of_decide_eq_false late⟩
          intro other same
          cases active.symm.trans same
          exact of_decide_eq_false early
        · contradiction
      · rename_i absent
        split at h
        · rename_i exp present
          exact ⟨fun nbf same => absurd same (absent nbf), exp, present,
            of_decide_eq_false (refuse_ok.mp h)⟩
        · contradiction
    obtain ⟨early, exp, present, late⟩ := times
    refine ⟨now, exp, rfl, issuer, audience, present, not_after_of_wrapped late, ?_⟩
    intro nbf same
    exact not_after_of_wrapped (early nbf same)
  · contradiction

/-- What is accepted was signed over the text of its first two parts. -/
theorem decodeAndValidateHs256_ok
    (h : decodeAndValidateHs256 crates clock config token = .ok claims) :
    ∃ parts secret bytes value, token = Parts.text parts ∧ parts.Dotless ∧
      config.jwt.hmacSecret = some secret ∧
      crates.urlSafeNoPad parts.signature =
        some (hmacSha256 crates.sha256 (asBytes secret) parts.signingInput).toList ∧
      crates.urlSafeNoPad parts.payload = some bytes ∧ crates.fromSlice bytes = some value ∧
      JwtClaims.deserialize value = some claims ∧ validateClaims clock config claims = .ok () := by
  unfold decodeAndValidateHs256 at h
  split at h
  · rename_i secret configured
    split at h
    · rename_i header payload sig cut
      obtain ⟨whole, free⟩ := Segments.splitOn_eq_three cut
      dsimp only at h
      split at h
      · rename_i actual decoded
        obtain ⟨signed, h⟩ := refuse_bind_ok.mp h
        have same := eq_of_constantTimeEq (by simpa using signed)
        split at h
        · rename_i bytes payloadDecoded
          split at h
          · rename_i found deserialized
            obtain ⟨value, parsed, deserialized⟩ := Option.bind_eq_some_iff.mp deserialized
            cases valid : validateClaims clock config found with
            | error e =>
              rw [valid] at h
              contradiction
            | ok _ =>
              rw [valid] at h
              cases h
              refine ⟨⟨header, payload, sig⟩, secret, bytes, value, ?_, free, configured, ?_,
                payloadDecoded, parsed, deserialized, valid⟩
              · rw [whole, Parts.text, Parts.signingInput, List.append_assoc, List.cons_append]
              · rw [decoded, ← same]
                rfl
          · contradiction
        · contradiction
      · contradiction
    · contradiction
  · contradiction

theorem entitles_of_valid (deserialized : JwtClaims.deserialize (.object members) = some claims)
    (valid : validateClaims (some now) config claims = .ok ()) :
    Entitles config.jwt now.toNat members := by
  obtain ⟨_, ⟨⟩, _, hexp, hnbf, hiss, haud, _⟩ := JwtClaims.deserialize_ok deserialized
  obtain ⟨_, exp, ⟨⟩, issuer, audience, present, late, early⟩ := validateClaims_ok valid
  rw [present] at hexp
  rw [issuer] at hiss
  refine ⟨claim_of_str hiss, ?_, ⟨exp, claim_of_usize hexp, late⟩, ?_⟩
  · rcases audMatches_ok audience with single | ⟨list, several, member⟩
    · rw [single] at haud
      obtain ⟨_, found, ⟨⟩⟩ := claim_of_field haud
      exact Or.inl found
    · rw [several] at haud
      obtain ⟨_, found, ⟨⟩⟩ := claim_of_field haud
      exact Or.inr ⟨list, found, member⟩
  · cases active : claims.nbf with
    | none =>
      rw [active] at hnbf
      exact Or.inl (claim_of_absent_field hnbf)
    | some nbf =>
      rw [active] at hnbf
      exact Or.inr ⟨nbf, claim_of_usize hnbf, early nbf active⟩

theorem client_of_fields (hsub : JwtClaims.field Value.asStr members "sub" = some sub)
    (hclient : JwtClaims.field Value.asStr members "client_id" = some clientId)
    (chosen : (clientId <|> sub) = some chosenId) :
    claim members "client_id" = some (.string chosenId) ∨
      claim members "client_id" = none ∧ claim members "sub" = some (.string chosenId) := by
  cases clientId with
  | some named =>
    cases chosen
    exact Or.inl (claim_of_str hclient)
  | none =>
    have fallback : sub = some chosenId := chosen
    rw [fallback] at hsub
    exact Or.inr ⟨claim_of_absent_field hclient, claim_of_str hsub⟩

theorem subject_of_field (hsub : JwtClaims.field Value.asStr members "sub" = some sub) :
    claim members "sub" = some (.string (sub.getD clientId)) ∨
      claim members "sub" = none ∧ sub.getD clientId = clientId := by
  cases sub with
  | some subject => exact Or.inl (claim_of_str hsub)
  | none => exact Or.inr ⟨claim_of_absent_field hsub, rfl⟩

/-- A token that is accepted proves the context that is returned. -/
theorem decodeJwt_proves (h : decodeJwt crates clock config token = .ok ctx) :
    ∃ parts, token = Parts.text parts ∧ parts.Dotless ∧ Proves crates clock config parts ctx := by
  unfold decodeJwt at h
  cases decoded : decodeAndValidateHs256 crates clock config token with
  | error e =>
    rw [decoded] at h
    contradiction
  | ok claims =>
    rw [decoded] at h
    obtain ⟨parts, secret, bytes, value, whole, free, configured, signature, payload, parsed,
      deserialized, valid⟩ := decodeAndValidateHs256_ok decoded
    obtain ⟨members, rfl, hsub, -, -, -, -, hclient, extra⟩ :=
      JwtClaims.deserialize_ok deserialized
    obtain ⟨now, _, ticking, -⟩ := validateClaims_ok valid
    rw [ticking] at valid
    rw [toList_hmacSha256] at signature
    simp only [bind, Except.bind] at h
    split at h
    · rename_i tenant named
      split at h
      · rename_i client chosen
        cases h
        obtain ⟨value, found, text⟩ := Option.bind_eq_some_iff.mp named
        refine ⟨parts, whole, free, secret, now, bytes, members, configured, ticking, signature,
          payload, parsed, entitles_of_valid deserialized valid,
          ⟨value, claim_of_get extra found text, text⟩, client_of_fields hsub hclient chosen,
          subject_of_field hsub⟩
      · contradiction
    · contradiction

/-- With auth on, an identity comes from the token, or where there is none from the header. -/
theorem authenticate_origin (enabled : config.enabled = true)
    (h : authenticate crates clock config bearer legacy missing = .ok (ctx, flag)) :
    (∃ token, bearer = some token ∧ decodeJwt crates clock config token = .ok ctx) ∨
      bearer = none ∧ flag = true ∧ legacy = .ok ctx := by
  simp only [authenticate, enabled, Bool.not_true, Bool.false_eq_true, if_false] at h
  cases bearer with
  | some token =>
    obtain ⟨_, decoded, ⟨⟩⟩ := map_ok.mp h
    exact Or.inl ⟨token, rfl, decoded⟩
  | none =>
    cases mode : config.legacyHeaderMode with
    | false => simp [mode] at h
    | true =>
      simp only [mode, if_true] at h
      obtain ⟨_, made, ⟨⟩⟩ := map_ok.mp h
      exact Or.inr ⟨rfl, rfl, made⟩

/-- With auth on, only a bearer token yields a context that is not a legacy one. -/
theorem decoded_of_authenticate (enabled : config.enabled = true)
    (h : authenticate crates clock config bearer legacy missing = .ok (ctx, false)) :
    ∃ token, bearer = some token ∧ decodeJwt crates clock config token = .ok ctx := by
  rcases authenticate_origin enabled h with found | ⟨-, legacy, -⟩
  · exact found
  · cases legacy

theorem metadata_of_text (headers : HeaderMap) (text : "-bin".toList.isSuffixOf name.toList = false) :
    headers.metadata name = headers.get name := by
  rw [HeaderMap.metadata, if_neg (by rw [text]; exact Bool.false_ne_true)]

theorem extractGrpcBearer_eq (headers : HeaderMap) :
    extractGrpcBearer headers = extractHttpBearer headers := by
  rw [extractGrpcBearer, metadata_of_text headers (by decide)]
  rfl

/-- Whatever front end admits a request by its token, the token proves the context. -/
theorem authenticated_proves (crates : Crates) (clock : Option UInt64) (config : AuthConfig)
    (clientConfig : ClientConfig) (headers : HeaderMap) (ctx : AuthContext)
    (enabled : config.enabled = true)
    (admitted : authenticateHttp crates clock config headers clientConfig = .ok (ctx, false) ∨
      authenticateGrpc crates clock config headers clientConfig = .ok (ctx, false)) :
    ∃ value parts, headers.get "authorization" = some value ∧ Bears value (Parts.text parts) ∧
      parts.Dotless ∧ Proves crates clock config parts ctx := by
  have presented : ∃ token, extractHttpBearer headers = some token ∧
      decodeJwt crates clock config token = .ok ctx := by
    cases admitted with
    | inl http => exact decoded_of_authenticate enabled http
    | inr grpc => exact extractGrpcBearer_eq headers ▸ decoded_of_authenticate enabled grpc
  obtain ⟨token, bearer, decoded⟩ := presented
  obtain ⟨value, found, read⟩ := Option.bind_eq_some_iff.mp bearer
  obtain ⟨text, readable, extracted⟩ := Option.bind_eq_some_iff.mp read
  obtain ⟨parts, rfl, free, proves⟩ := decodeJwt_proves decoded
  have bears := bears_of_extractBearer (toStr_eq readable ▸ extracted)
  exact ⟨value, parts, found, bears, free, proves⟩

/-- The digests and the payload of one token, signed with the secret `secret`. -/
def sampleCrates : Crates where
  urlSafeNoPad text :=
    if text.length = 43 then
      some [193, 236, 173, 81, 136, 111, 131, 135, 110, 101, 145, 203, 198, 122, 228, 100, 42, 144,
        196, 23, 45, 178, 217, 91, 8, 60, 162, 127, 110, 58, 242, 185]
    else some (asBytes ("\x7b\"aud\":\"audience\",\"exp\":4102444800,\"iss\":\"issuer\"," ++
      "\"sub\":\"user_1\",\"tenant_id\":\"tenant_1\"\x7d"))
  fromSlice _ := some (.object [("aud", .string "audience"), ("exp", .number (.posInt 4102444800)),
    ("iss", .string "issuer"), ("sub", .string "user_1"), ("tenant_id", .string "tenant_1")])
  sha256 text :=
    if text.length = 219 then
      #v[77, 255, 12, 62, 199, 31, 228, 103, 117, 26, 84, 112, 65, 229, 141, 176, 32, 192, 148, 197,
        210, 153, 231, 68, 38, 206, 166, 83, 198, 80, 155, 142]
    else
      #v[193, 236, 173, 81, 136, 111, 131, 135, 110, 101, 145, 203, 198, 122, 228, 100, 42, 144, 196,
        23, 45, 178, 217, 91, 8, 60, 162, 127, 110, 58, 242, 185]

def sampleAuth : AuthConfig where
  enabled := true
  legacyHeaderMode := false
  tenantClaim := "tenant_id"
  legacyTenant := "legacy"
  apiKeys := ["dev-key"]
  jwt := ⟨"issuer", "audience", 0, some "secret"⟩

def sampleClient : ClientConfig := ⟨"x-client-id", "x-device-id", true, ["x-os"]⟩

def sampleHeaders : HeaderMap :=
  [("x-api-key", asBytes "dev-key"),
    ("authorization", asBytes ("Bearer eyJhbGciOiJIUzI1NiIsInR5cCI6IkpXVCJ9." ++
      "eyJhdWQiOiJhdWRpZW5jZSIsImV4cCI6NDEwMjQ0NDgwMCwiaXNzIjoiaXNzdWVyIiwic3ViIjoidXNlcl8xIiwi" ++
      "dGVuYW50X2lkIjoidGVuYW50XzEifQ.weytUYhvg4duZZHLxnrkZCqQxBctstlbCDyif2468rk"))]

def sampleContext : AuthContext := ⟨"user_1", "tenant_1", "user_1", []⟩

set_option maxRecDepth 8000 in
theorem sample_admitted : authenticateHttp sampleCrates (some 1771000000) sampleAuth sampleHeaders
    sampleClient = .ok (sampleContext, false) := by
  decide +kernel

theorem sample_proves : ∃ value parts, HeaderMap.get sampleHeaders "authorization" = some value ∧
    Bears value (Parts.text parts) ∧ parts.Dotless ∧
    Proves sampleCrates (some 1771000000) sampleAuth parts sampleContext :=
  authenticated_proves _ _ _ sampleClient _ _ rfl (Or.inl sample_admitted)

end Propeller
