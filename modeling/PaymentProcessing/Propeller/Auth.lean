import Mathlib.Data.List.Basic
import PaymentProcessing.Propeller.Config
import PaymentProcessing.Propeller.Error

/-! `AuthService`: bearer tokens signed with HMAC-SHA256, the client-id header that
replaces them in legacy mode, and the keys of publishers. A `&str` taken out of a header
is visible ASCII and stays the list of its bytes. -/
namespace Propeller

/-- Header fields as they arrived, under lower-case names. -/
abbrev HeaderMap := List (String × List UInt8)

namespace HeaderMap

/-- The first value under a name, whatever the case of the name. -/
def get (headers : HeaderMap) (name : String) : Option (List UInt8) :=
  (headers.find? (·.1 = String.ofList (name.toList.map Char.toLower))).map (·.2)

/-- `MetadataMap::get` answers for no binary name. -/
def metadata (headers : HeaderMap) (name : String) : Option (List UInt8) :=
  if "-bin".toList.isSuffixOf name.toList then none else headers.get name

end HeaderMap

/-- `HeaderValue::to_str` -/
def toStr (value : List UInt8) : Option (List UInt8) :=
  if value.all fun b => b = 9 ∨ 32 ≤ b ∧ b < 127 then some value else none

theorem toStr_eq (h : toStr value = some text) : text = value := by
  unfold toStr at h
  split at h
  · exact (Option.some.inj h).symm
  · contradiction

def textOf (ascii : List UInt8) : String := String.ofList (ascii.map fun b => Char.ofNat b.toNat)

/-- `str::as_bytes` -/
def asBytes (text : String) : List UInt8 := text.toUTF8.data.toList

inductive Number where
  | posInt (n : UInt64)
  | negInt (n : Int)
  /-- A number with a fraction or an exponent, as `Number::to_string` prints it. -/
  | float (text : String)
  deriving DecidableEq, Repr

def Number.toString : Number → String
  | .posInt n => ToString.toString n.toNat
  | .negInt n => ToString.toString n
  | .float text => text

/-- A JSON value; the members of an object are in the order of its text. -/
inductive Value where
  | null
  | bool (b : Bool)
  | number (n : Number)
  | string (text : String)
  | array (entries : List Value)
  | object (members : List (String × Value))
  deriving Repr

namespace Value

def asStr : Value → Option String
  | .string text => some text
  | _ => none

/-- `usize` of `serde_json` on a 64-bit target -/
def asUsize : Value → Option UInt64
  | .number (.posInt n) => some n
  | _ => none

def asStrings : Value → Option (List String)
  | .array entries => entries.mapM asStr
  | _ => none

end Value

def valueToString : Value → Option String
  | .string v => some v
  | .number v => some v.toString
  | _ => none

/-- What the service uses of base64, serde_json and sha2. -/
structure Crates where
  urlSafeNoPad : List UInt8 → Option (List UInt8)
  fromSlice : List UInt8 → Option Value
  sha256 : List UInt8 → Vector UInt8 32

structure JwtClaims where
  sub : Option String
  exp : Option UInt64
  nbf : Option UInt64
  iss : Option String
  aud : Option Value
  clientId : Option String
  scope : Option String
  scopes : Option (List String)
  /-- The flattened rest; a name that comes twice keeps its last value. -/
  extra : List (String × Value)

namespace JwtClaims

def fieldNames : List String :=
  ["sub", "exp", "nbf", "iss", "aud", "client_id", "scope", "scopes"]

/-- A derived optional field: absent and null are `None`, a second occurrence or another
type is an error. -/
def field (read : Value → Option α) (members : List (String × Value)) (name : String) :
    Option (Option α) :=
  match members.filter (·.1 = name) with
  | [] | [(_, .null)] => some none
  | [(_, value)] => (read value).map some
  | _ => none

def deserialize : Value → Option JwtClaims
  | .object members => do
      let sub ← field Value.asStr members "sub"
      let exp ← field Value.asUsize members "exp"
      let nbf ← field Value.asUsize members "nbf"
      let iss ← field Value.asStr members "iss"
      let aud ← field some members "aud"
      let clientId ← field Value.asStr members "client_id"
      let scope ← field Value.asStr members "scope"
      let scopes ← field Value.asStrings members "scopes"
      return ⟨sub, exp, nbf, iss, aud, clientId, scope, scopes,
        members.filter fun member => !fieldNames.contains member.1⟩
  | _ => none

/-- `extra.get(name)` -/
def get (claims : JwtClaims) (name : String) : Option Value :=
  ((claims.extra.filter (·.1 = name)).getLast?).map (·.2)

end JwtClaims

structure AuthContext where
  subject : String
  tenantId : String
  clientId : String
  scopes : List String
  deriving DecidableEq, Repr

/-- `char::is_whitespace` -/
def isWhitespace (c : Char) : Bool :=
  (9 ≤ c.val ∧ c.val ≤ 13) || (0x2000 ≤ c.val ∧ c.val ≤ 0x200a) ||
    [0x20, 0x85, 0xa0, 0x1680, 0x2028, 0x2029, 0x202f, 0x205f, 0x3000].contains c.val

/-- A set of scopes; its order is not the source's, which is the order of a `HashSet`. -/
def parseScopes (scope : Option String) (scopes : Option (List String)) : List String :=
  let words := (((scope.getD "").toList.splitOnP isWhitespace).filter (!·.isEmpty)).map String.ofList
  (words ++ scopes.getD []).eraseDups

def lowerByte (b : UInt8) : UInt8 := if 65 ≤ b ∧ b ≤ 90 then b + 32 else b

def eqIgnoreAsciiCase (a b : List UInt8) : Bool := a.map lowerByte == b.map lowerByte

def space : UInt8 := 32

def dot : UInt8 := 46

/-- `value.splitn(2, ' ')` into a scheme and a token -/
def extractBearer (value : List UInt8) : Option (List UInt8) :=
  match value.span (· ≠ space) with
  | (scheme, _ :: token) =>
      if eqIgnoreAsciiCase scheme (asBytes "bearer") && !token.isEmpty then some token else none
  | (_, []) => none

def extractHttpBearer (headers : HeaderMap) : Option (List UInt8) :=
  (headers.get "authorization").bind fun value => (toStr value).bind extractBearer

def extractGrpcBearer (metadata : HeaderMap) : Option (List UInt8) :=
  (metadata.metadata "authorization").bind fun value => (toStr value).bind extractBearer

def constantTimeEq (lhs rhs : List UInt8) : Bool :=
  if lhs.length ≠ rhs.length then false
  else (lhs.zip rhs).foldl (fun diff pair => diff ||| (pair.1 ^^^ pair.2)) 0 == 0

/-- `block[..source.len()].copy_from_slice(source)`, for a slice within its range -/
def copyFromSlice (block : Vector UInt8 n) (source : List UInt8) (fits : source.length ≤ n) :
    Vector UInt8 n :=
  ⟨(source ++ block.toList.drop source.length).toArray, by simp; omega⟩

def blockSize : Nat := 64

theorem digest_fits (digest : Vector UInt8 32) : digest.toList.length ≤ blockSize := by
  rw [Vector.length_toList]
  decide

def hmacSha256 (sha256 : List UInt8 → Vector UInt8 32) (key message : List UInt8) :
    Vector UInt8 32 :=
  let zeros : Vector UInt8 blockSize := .replicate blockSize 0
  let keyBlock :=
    if long : blockSize < key.length then copyFromSlice zeros (sha256 key).toList (digest_fits _)
    else copyFromSlice zeros key (Nat.le_of_not_lt long)
  let ipad := (Vector.replicate blockSize 0x36).zipWith (· ^^^ ·) keyBlock
  let opad := (Vector.replicate blockSize 0x5c).zipWith (· ^^^ ·) keyBlock
  let inner := sha256 (ipad.toList ++ message)
  sha256 (opad.toList ++ inner.toList)

def audMatches (aud : Option Value) (expected : String) : Bool :=
  match aud with
  | some (.string single) => single == expected
  | some (.array list) => list.any fun entry => entry.asStr == some expected
  | _ => false

def legacyContext (clientId legacyTenant : String) : Except PropellerError AuthContext := do
  refuse clientId.isEmpty (.unauthenticated "missing client identity")
  return ⟨clientId, legacyTenant, clientId, []⟩

section Service
variable (crates : Crates) (clock : Option UInt64) (config : AuthConfig)

/-- `clock` is the time in seconds, none before the epoch. Both sums wrap at 64 bits. -/
def validateClaims (claims : JwtClaims) : Except PropellerError Unit := do
  refuse (claims.iss != some config.jwt.issuer) (.unauthenticated "invalid jwt issuer")
  refuse (!audMatches claims.aud config.jwt.audience) (.unauthenticated "invalid jwt audience")
  let some now := clock | .error (.internal "system time error")
  let leeway := config.jwt.clockSkewSecs
  if let some nbf := claims.nbf then
    refuse (now + leeway < nbf) (.unauthenticated "jwt not active yet")
  let some exp := claims.exp | .error (.unauthenticated "jwt exp missing")
  refuse (now > exp + leeway) (.unauthenticated "jwt expired")

def decodeAndValidateHs256 (token : List UInt8) : Except PropellerError JwtClaims := do
  let some secret := config.jwt.hmacSecret | .error (.internal "jwt secret not configured")
  let [header, payload, sig] := token.splitOn dot | .error (.unauthenticated "invalid jwt format")
  let expected := hmacSha256 crates.sha256 (asBytes secret) (header ++ dot :: payload)
  let some actual := crates.urlSafeNoPad sig
    | .error (.unauthenticated "invalid jwt signature encoding")
  refuse (!constantTimeEq expected.toList actual)
    (.unauthenticated "jwt signature verification failed")
  let some bytes := crates.urlSafeNoPad payload | .error (.unauthenticated "invalid jwt payload")
  let some claims := (crates.fromSlice bytes).bind JwtClaims.deserialize
    | .error (.unauthenticated "invalid jwt claims")
  validateClaims clock config claims
  return claims

def decodeJwt (token : List UInt8) : Except PropellerError AuthContext := do
  let claims ← decodeAndValidateHs256 crates clock config token
  let some tenantId := (claims.get config.tenantClaim).bind valueToString
    | .error (.unauthenticated ("missing tenant claim: " ++ config.tenantClaim))
  let some clientId := claims.clientId <|> claims.sub
    | .error (.unauthenticated "missing client identity")
  return ⟨claims.sub.getD clientId, tenantId, clientId, parseScopes claims.scope claims.scopes⟩

def legacyContextFromHttp (headers : HeaderMap) (clientConfig : ClientConfig) :
    Except PropellerError AuthContext :=
  legacyContext (textOf (((headers.get clientConfig.header).bind toStr).getD [])) config.legacyTenant

def legacyContextFromGrpc (metadata : HeaderMap) (clientConfig : ClientConfig) :
    Except PropellerError AuthContext :=
  legacyContext (textOf (((metadata.metadata clientConfig.header).bind toStr).getD []))
    config.legacyTenant

/-- The context of a request, and whether the legacy header stood in for a token. -/
def authenticate (bearer : Option (List UInt8)) (legacy : Except PropellerError AuthContext)
    (missing : String) : Except PropellerError (AuthContext × Bool) :=
  if !config.enabled then legacy.map (·, false)
  else match bearer with
    | some token => (decodeJwt crates clock config token).map (·, false)
    | none =>
      if config.legacyHeaderMode then legacy.map (·, true) else .error (.unauthenticated missing)

def authenticateHttp (headers : HeaderMap) (clientConfig : ClientConfig) :
    Except PropellerError (AuthContext × Bool) :=
  authenticate crates clock config (extractHttpBearer headers)
    (legacyContextFromHttp config headers clientConfig) "missing Authorization bearer token"

def authenticateGrpc (metadata : HeaderMap) (clientConfig : ClientConfig) :
    Except PropellerError (AuthContext × Bool) :=
  authenticate crates clock config (extractGrpcBearer metadata)
    (legacyContextFromGrpc config metadata clientConfig) "missing authorization bearer token"

def authorizeApiKeyGrpc (metadata : HeaderMap) : Except PropellerError Unit :=
  if !config.enabled then .ok ()
  else if config.apiKeys.isEmpty then
    .error (.unauthenticated "publisher api keys are not configured")
  else match (metadata.metadata "x-api-key").bind toStr with
    | none => .error (.unauthenticated "missing x-api-key")
    | some key =>
      if config.apiKeys.any (· = textOf key) then .ok ()
      else .error (.permissionDenied "invalid api key")

end Service
end Propeller
