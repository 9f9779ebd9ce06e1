import PaymentProcessing.Propeller.Tokens

/-! Requests that present an Authorization header. `extract_bearer` answers the same for a
header that is absent and for one that it cannot read, so in legacy mode a request with such
a header is taken for one that has only its client-id header. -/
namespace Propeller

/-- The form in which a name is looked up. -/
def lowered (name : String) : String := String.ofList (name.toList.map Char.toLower)

/-- `HeaderName`: lower-case letters, digits and the other token characters. -/
def HeaderName (name : String) : Prop :=
  name ≠ "" ∧ ∀ c ∈ name.toList, c.isLower ∨ c.isDigit ∨
    c.toNat ∈ [33, 35, 36, 37, 38, 39, 42, 43, 45, 46, 94, 95, 96, 124, 126]

instance (name : String) : Decidable (HeaderName name) :=
  @instDecidableAnd _ _ inferInstance (List.decidableBAll _ _)

def HeaderMap.Named (headers : HeaderMap) : Prop := ∀ header ∈ headers, HeaderName header.1

instance (headers : HeaderMap) : Decidable headers.Named :=
  inferInstanceAs (Decidable (∀ header ∈ headers, HeaderName header.1))

/-- The value alone decides what requests that present it as their Authorization header are
answered, and none of them is admitted by its client-id header. -/
structure Decides (answer : HeaderMap → Except PropellerError (AuthContext × Bool))
    (value : List UInt8) : Prop where
  same : ∀ headers other : HeaderMap, headers.Named → other.Named →
    headers.get "authorization" = some value → other.get "authorization" = some value →
    answer headers = answer other
  unadmitted : ∀ (headers : HeaderMap) (ctx : AuthContext), headers.Named →
    headers.get "authorization" = some value → answer headers ≠ .ok (ctx, true)

/-- What a header that is present or not says, as `unwrap_or("")` has it. -/
def clientText (value : Option (List UInt8)) : String := textOf ((value.bind toStr).getD [])

/-- No request that presents this Authorization header states a client under the name: no header
can have it, or it is the Authorization header itself, and nothing can be read there. -/
def Anonymous (name : String) (value : List UInt8) : Prop :=
  ¬ HeaderName (lowered name) ∨ lowered name = "authorization" ∧ clientText (some value) = ""

section Answers
variable {crates : Crates} {clock : Option UInt64} {config : AuthConfig}
  {answer : HeaderMap → Except PropellerError (AuthContext × Bool)} {client : HeaderMap → String}
  {bearer : Option (List UInt8)} {value : List UInt8}

theorem Decides.of_fixed (result : Except PropellerError (AuthContext × Bool))
    (fixed : ∀ headers : HeaderMap, headers.Named → headers.get "authorization" = some value →
      answer headers = result)
    (plain : ∀ ctx, result ≠ .ok (ctx, true)) : Decides answer value where
  same headers other named named' presented presented' :=
    (fixed headers named presented).trans (fixed other named' presented').symm
  unadmitted headers ctx named presented := fixed headers named presented ▸ plain ctx

/-- A front end that looks at the bearer token and, in legacy mode, at the client id. -/
theorem decides_iff (enabled : config.enabled = true)
    (answers : ∀ headers : HeaderMap, headers.get "authorization" = some value →
      answer headers = authenticate crates clock config bearer
        (legacyContext (client headers) config.legacyTenant) missing) :
    Decides answer value ↔ bearer.isSome = true ∨ config.legacyHeaderMode = false ∨
      ∀ headers : HeaderMap, headers.Named → headers.get "authorization" = some value →
        client headers = "" := by
  constructor
  · intro decides
    by_cases held : bearer.isSome = true
    · exact Or.inl held
    by_cases mode : config.legacyHeaderMode = false
    · exact Or.inr (Or.inl mode)
    refine Or.inr (Or.inr fun headers named presented => ?_)
    by_contra stated
    have none : bearer = none := by simpa using held
    have legacy : config.legacyHeaderMode = true := by simpa using mode
    refine decides.unadmitted headers
      ⟨client headers, config.legacyTenant, client headers, []⟩ named presented ?_
    have made : legacyContext (client headers) config.legacyTenant =
        .ok ⟨client headers, config.legacyTenant, client headers, []⟩ := by
      simp [legacyContext, refuse, stated, bind, Except.bind, pure, Except.pure]
    simp [answers headers presented, authenticate, enabled, none, legacy, made, Except.map]
  · intro condition
    cases bearer with
    | some token =>
      refine .of_fixed ((decodeJwt crates clock config token).map (·, false))
        (fun headers _ presented => ?_) fun ctx admitted => ?_
      · rw [answers headers presented, authenticate, enabled]
        rfl
      · obtain ⟨_, -, ⟨⟩⟩ := map_ok.mp admitted
    | none =>
      cases mode : config.legacyHeaderMode with
      | false =>
        refine .of_fixed (.error (.unauthenticated missing)) (fun headers _ presented => ?_)
          fun ctx admitted => by cases admitted
        rw [answers headers presented, authenticate, enabled]
        simp [mode]
      | true =>
        have anonymous := (condition.resolve_left (by simp)).resolve_left (by simp [mode])
        refine .of_fixed (.error (.unauthenticated "missing client identity"))
          (fun headers named presented => ?_) fun ctx admitted => by cases admitted
        rw [answers headers presented, authenticate, enabled, anonymous headers named presented]
        simp [mode, legacyContext, refuse, bind, Except.bind, Except.map]

end Answers

theorem get_eq_get {headers : HeaderMap} (same : lowered name = lowered name') :
    headers.get name = headers.get name' := by
  unfold lowered at same
  rw [HeaderMap.get, HeaderMap.get, same]

theorem get_absent {headers : HeaderMap} (named : headers.Named) (nameless : ¬ HeaderName (lowered name)) :
    headers.get name = none := by
  have absent : headers.find? (·.1 = lowered name) = none := by
    refine List.find?_eq_none.mpr fun header member same => ?_
    have same : header.1 = lowered name := by simpa using same
    exact nameless (same ▸ named header member)
  unfold lowered at absent
  rw [HeaderMap.get, absent]
  rfl

theorem get_cons (name other : String) (value : List UInt8) (rest : HeaderMap) :
    HeaderMap.get ((name, value) :: rest) other =
      if name = lowered other then some value else rest.get other := by
  unfold HeaderMap.get lowered
  by_cases hit : name = String.ofList (other.toList.map Char.toLower)
  · simp [hit]
  · simp [hit]

theorem lowered_authorization : lowered "authorization" = "authorization" := by decide

/-- Which names and values leave every request without a client id. -/
theorem anonymous_iff (name : String) (value : List UInt8) :
    (∀ headers : HeaderMap, headers.Named → headers.get "authorization" = some value →
      clientText (headers.get name) = "") ↔ Anonymous name value := by
  have authorization : HeaderName "authorization" := by decide
  have presented (rest : HeaderMap) :
      HeaderMap.get (("authorization", value) :: rest) "authorization" = some value := by
    rw [get_cons, if_pos lowered_authorization.symm]
  constructor
  · intro always
    by_cases usable : HeaderName (lowered name)
    · by_cases own : lowered name = "authorization"
      · have said := always [("authorization", value)] (by simpa [HeaderMap.Named]) (presented [])
        rw [get_eq_get (own.trans lowered_authorization.symm), presented] at said
        exact Or.inr ⟨own, said⟩
      · -- any other header of the request can carry the client id
        have said := always [("authorization", value), (lowered name, asBytes "alice")]
          (by simp [HeaderMap.Named, authorization, usable]) (presented _)
        rw [get_cons, if_neg (Ne.symm own), get_cons, if_pos rfl] at said
        exact absurd said (by decide)
    · exact Or.inl usable
  · rintro (nameless | ⟨own, silent⟩) headers named presented
    · rw [get_absent named nameless]
      rfl
    · rwa [get_eq_get (own.trans lowered_authorization.symm), presented]

section FrontEnds
variable (crates : Crates) (clock : Option UInt64) (config : AuthConfig) (clientConfig : ClientConfig)
  {value : List UInt8}

theorem authenticateHttp_eq {headers : HeaderMap} (presented : headers.get "authorization" = some value) :
    authenticateHttp crates clock config headers clientConfig =
      authenticate crates clock config ((toStr value).bind extractBearer)
        (legacyContext (clientText (headers.get clientConfig.header)) config.legacyTenant)
        "missing Authorization bearer token" := by
  rw [authenticateHttp, extractHttpBearer, presented]
  rfl

theorem authenticateGrpc_presented {headers : HeaderMap}
    (presented : headers.get "authorization" = some value) :
    authenticateGrpc crates clock config headers clientConfig =
      authenticate crates clock config ((toStr value).bind extractBearer)
        (legacyContext (clientText (headers.metadata clientConfig.header)) config.legacyTenant)
        "missing authorization bearer token" := by
  rw [authenticateGrpc, extractGrpcBearer_eq, extractHttpBearer, presented]
  rfl

/-- The client id of a gRPC request, which is never read from a binary name. -/
theorem anonymous_metadata_iff (name : String) (value : List UInt8) :
    (∀ headers : HeaderMap, headers.Named → headers.get "authorization" = some value →
      clientText (headers.metadata name) = "") ↔
      "-bin".toList.isSuffixOf name.toList = true ∨ Anonymous name value := by
  cases binary : "-bin".toList.isSuffixOf name.toList with
  | true =>
    have unread (headers : HeaderMap) : headers.metadata name = none := by
      rw [HeaderMap.metadata, if_pos binary]
    exact iff_of_true (fun headers _ _ => by rw [unread]; rfl) (Or.inl rfl)
  | false =>
    have text (headers : HeaderMap) := metadata_of_text headers binary
    simp only [text, anonymous_iff, Bool.false_eq_true, false_or]

end FrontEnds

/-- With auth on, an Authorization value decides the answer to every request that presents it
exactly when it holds a bearer token, or legacy mode is off, or no such request can state a
client id. -/
theorem authorization_decides_iff (crates : Crates) (clock : Option UInt64) (config : AuthConfig)
    (clientConfig : ClientConfig) (value : List UInt8) (enabled : config.enabled = true) :
    (Decides (fun headers => authenticateHttp crates clock config headers clientConfig) value ↔
      ((toStr value).bind extractBearer).isSome = true ∨ config.legacyHeaderMode = false ∨
        Anonymous clientConfig.header value) ∧
    (Decides (fun metadata => authenticateGrpc crates clock config metadata clientConfig) value ↔
      ((toStr value).bind extractBearer).isSome = true ∨ config.legacyHeaderMode = false ∨
        "-bin".toList.isSuffixOf clientConfig.header.toList = true ∨
        Anonymous clientConfig.header value) := by
  constructor
  · rw [decides_iff enabled fun _ => authenticateHttp_eq crates clock config clientConfig,
      anonymous_iff]
  · rw [decides_iff enabled fun _ => authenticateGrpc_presented crates clock config clientConfig,
      anonymous_metadata_iff]

/-- A bearer token is never passed over for the client-id header. -/
theorem bearer_decides : Decides
    (fun headers => authenticateHttp sampleCrates (some 1771000000) AppConfig.shipped.auth headers
      AppConfig.shipped.client) (asBytes "Bearer x") :=
  (authorization_decides_iff sampleCrates _ AppConfig.shipped.auth _ _ rfl).1.mpr
    (Or.inl (by decide +kernel))

/-- A request of basic authentication with this client id. -/
def basicRequest (clientId : String) : HeaderMap :=
  [("authorization", asBytes "Basic YWxpY2U6cHc="), ("x-client-id", asBytes clientId)]

/-- The shipped configuration admits it as whoever the client-id header names. -/
theorem basic_downgraded :
    authenticateHttp sampleCrates (some 1771000000) AppConfig.shipped.auth (basicRequest "alice")
      AppConfig.shipped.client = .ok (⟨"alice", "legacy", "alice", []⟩, true) ∧
    authenticateHttp sampleCrates (some 1771000000) AppConfig.shipped.auth (basicRequest "bob")
      AppConfig.shipped.client = .ok (⟨"bob", "legacy", "bob", []⟩, true) ∧
    ¬ Decides (fun headers => authenticateHttp sampleCrates (some 1771000000)
      AppConfig.shipped.auth headers AppConfig.shipped.client) (asBytes "Basic YWxpY2U6cHc=") := by
  have alice : authenticateHttp sampleCrates (some 1771000000) AppConfig.shipped.auth
      (basicRequest "alice") AppConfig.shipped.client =
      .ok (⟨"alice", "legacy", "alice", []⟩, true) := by
    decide +kernel
  refine ⟨alice, by decide +kernel, fun decides => ?_⟩
  exact decides.unadmitted _ _ (by decide +kernel) (by decide +kernel) alice

end Propeller
