import PaymentProcessing.Propeller.GrpcHandler
import PaymentProcessing.Propeller.Jwt

/-! The two entries of a client: `ws_connect` with the start of `handle_ws`, and the start of
`channel`. Each authenticates, reads the device and calls `subscribe_client`; the entries are
written apart and refuse at different points. -/
namespace Propeller

/-- The arguments of a call of `subscribe_client`, and whether a legacy header led to it. -/
structure SubscribeCall where
  tenantId : String
  clientId : String
  device : Option Device
  legacyMode : Bool
  deriving DecidableEq, Repr

/-- The call gets to `pubsub.subscribe`. -/
def SubscribeCall.Subscribes (config : ClientConfig) (call : SubscribeCall) : Prop :=
  ∃ channels, clientChannels config call.tenantId call.clientId call.device = .ok channels

/-- `attrs.insert` for each configured header that is there and readable. -/
def deviceAttributes (get : String → Option (List UInt8)) (keys : List String) :
    List (String × String) :=
  keys.foldl (fun attrs key =>
    match (get key).bind toStr with
    | some val => attrs.filter (·.1 ≠ key) ++ [(key, textOf val)]
    | none => attrs) []

/-- The device as `ws_connect` reads it. -/
def wsDevice (config : ClientConfig) (headers : HeaderMap) : Option Device :=
  if config.enableDeviceSupport then
    let deviceId := textOf (((headers.get config.deviceHeader).bind toStr).getD [])
    let attrs := deviceAttributes headers.get config.deviceAttributeHeaders
    if !deviceId.isEmpty then some ⟨deviceId, attrs⟩ else none
  else none

/-- `extract_device`, whose result is never an error. -/
def extractDevice (config : ClientConfig) (metadata : HeaderMap) : Except Status (Option Device) :=
  if !config.enableDeviceSupport then .ok none
  else
    let deviceId := textOf (((metadata.metadata config.deviceHeader).bind toStr).getD [])
    if deviceId.isEmpty then .ok none
    else .ok (some ⟨deviceId, deviceAttributes metadata.metadata config.deviceAttributeHeaders⟩)

section Entries
variable (crates : Crates) (clock : Option UInt64) (auth : AuthConfig) (config : ClientConfig)

/-- What `handle_ws` is started with; none is the answer `UNAUTHORIZED`. -/
def wsConnect (headers : HeaderMap) : Option SubscribeCall :=
  match authenticateHttp crates clock auth headers config with
  | .ok (ctx, legacyMode) => some ⟨ctx.tenantId, ctx.clientId, wsDevice config headers, legacyMode⟩
  | .error _ => none

/-- The call of `handle_ws`; none when it returns before. -/
def handleWs (call : SubscribeCall) : Option SubscribeCall :=
  if call.clientId.isEmpty then none else some call

/-- The call that a WebSocket request leads to. -/
def wsEntry (headers : HeaderMap) : Option SubscribeCall :=
  (wsConnect crates clock auth config headers).bind handleWs

/-- `channel` up to its call of `subscribe_client`. -/
def channelCall (h : GrpcPushHandler) (metadata : HeaderMap) : Except Status SubscribeCall := do
  let (ctx, legacyMode) ← h.authClient clock metadata
  let device ← extractDevice h.clientConfig metadata
  return ⟨ctx.tenantId, ctx.clientId, device, legacyMode⟩

/-- The call that a gRPC request leads to. -/
def grpcEntry (metadata : HeaderMap) : Option SubscribeCall :=
  (channelCall clock ⟨crates, auth, config⟩ metadata).toOption

end Entries

/-- The entry ends without a broker subscription. -/
def Quiet (config : ClientConfig) (entry : Option SubscribeCall) : Prop :=
  ∀ call, entry = some call → ¬ call.Subscribes config

namespace HeaderMap

/-- No header carries binary metadata. -/
def Plain (headers : HeaderMap) : Prop :=
  ∀ header ∈ headers, "-bin".toList.isSuffixOf header.1.toList = false

theorem metadata_eq_get {headers : HeaderMap} (plain : headers.Plain) (name : String) :
    headers.metadata name = headers.get name := by
  unfold metadata
  split
  · rename_i binary
    -- the name that is looked up ends in -bin too, and no header does
    have lowered : "-bin".toList <:+ name.toList.map Char.toLower := by
      obtain ⟨stem, whole⟩ := List.isSuffixOf_iff_suffix.mp binary
      refine ⟨stem.map Char.toLower, ?_⟩
      rw [← whole, List.map_append]
      rfl
    have nothing : headers.find? (·.1 = String.ofList (name.toList.map Char.toLower)) = none := by
      apply List.find?_eq_none.mpr
      intro header present same
      have same : header.1 = String.ofList (name.toList.map Char.toLower) := by simpa using same
      have binary : "-bin".toList.isSuffixOf header.1.toList = true := by
        rw [List.isSuffixOf_iff_suffix, same]
        simpa only [String.toList_ofList] using lowered
      exact absurd binary (by simp only [plain header present, Bool.false_eq_true, not_false_eq_true])
    rw [get, nothing]
    rfl
  · rfl

end HeaderMap

theorem authenticateGrpc_eq {headers : HeaderMap} (plain : headers.Plain) :
    authenticateGrpc crates clock auth headers config =
      authenticate crates clock auth (extractHttpBearer headers)
        (legacyContextFromHttp auth headers config) "missing authorization bearer token" := by
  unfold authenticateGrpc extractGrpcBearer extractHttpBearer legacyContextFromGrpc
    legacyContextFromHttp
  rw [HeaderMap.metadata_eq_get plain, HeaderMap.metadata_eq_get plain]

/-- The two texts for a missing token are all that sets the front ends apart. -/
theorem authenticate_toOption (first second : String) :
    (authenticate crates clock auth bearer legacy first).toOption =
      (authenticate crates clock auth bearer legacy second).toOption := by
  unfold authenticate
  split
  · rfl
  · cases bearer with
    | some token => rfl
    | none => cases auth.legacyHeaderMode <;> rfl

theorem extractDevice_eq {headers : HeaderMap} (plain : headers.Plain) :
    extractDevice config headers = .ok (wsDevice config headers) := by
  have same : headers.metadata = headers.get := funext fun name => HeaderMap.metadata_eq_get plain name
  unfold extractDevice wsDevice
  rw [same]
  cases config.enableDeviceSupport with
  | false => rfl
  | true =>
    simp only [Bool.not_true, Bool.false_eq_true, if_false, if_true]
    split
    · rename_i empty
      simp [empty]
    · rename_i named
      simp [named]

/-- Up to the check of `handle_ws`, the entries lead to the same call. -/
theorem wsConnect_eq_grpcEntry {headers : HeaderMap} (plain : headers.Plain) :
    wsConnect crates clock auth config headers = grpcEntry crates clock auth config headers := by
  have admitted : (authenticateGrpc crates clock auth headers config).toOption =
      (authenticateHttp crates clock auth headers config).toOption := by
    rw [authenticateGrpc_eq plain, authenticateHttp]
    exact authenticate_toOption _ _
  unfold wsConnect grpcEntry channelCall GrpcPushHandler.authClient
  simp only [extractDevice_eq plain]
  cases http : authenticateHttp crates clock auth headers config with
  | error e =>
    cases grpc : authenticateGrpc crates clock auth headers config with
    | error e' => rfl
    | ok found => simp [http, grpc, Except.toOption] at admitted
  | ok admission =>
    cases grpc : authenticateGrpc crates clock auth headers config with
    | error e' => simp [http, grpc, Except.toOption] at admitted
    | ok found =>
      obtain rfl : found = admission := by simpa [http, grpc, Except.toOption] using admitted
      rfl

/-- A call for a nameless client does not get to the broker. -/
theorem not_subscribes_of_nameless {call : SubscribeCall} (nameless : call.clientId.isEmpty = true) :
    ¬ call.Subscribes config := by
  rintro ⟨channels, accepted⟩
  unfold clientChannels at accepted
  obtain ⟨-, accepted⟩ := refuse_bind_ok.mp accepted
  obtain ⟨named, -⟩ := refuse_bind_ok.mp accepted
  rw [nameless] at named
  contradiction

/-- The same headers without binary metadata: both entries end without a broker subscription,
or both call `subscribe_client` with the same arguments and the same legacy flag. -/
theorem entries_agree (crates : Crates) (clock : Option UInt64) (config : AppConfig)
    (headers : HeaderMap) (plain : headers.Plain) :
    Quiet config.client (wsEntry crates clock config.auth config.client headers) ∧
        Quiet config.client (grpcEntry crates clock config.auth config.client headers) ∨
      ∃ call, wsEntry crates clock config.auth config.client headers = some call ∧
        grpcEntry crates clock config.auth config.client headers = some call := by
  unfold wsEntry
  rw [wsConnect_eq_grpcEntry plain]
  cases called : grpcEntry crates clock config.auth config.client headers with
  | none => exact Or.inl ⟨(fun _ none => nomatch none), fun _ none => nomatch none⟩
  | some call =>
    rw [Option.bind_some, handleWs]
    cases nameless : call.clientId.isEmpty with
    | false => exact Or.inr ⟨call, rfl, rfl⟩
    | true =>
      refine Or.inl ⟨(fun _ none => nomatch none), ?_⟩
      rintro _ ⟨⟩
      exact not_subscribes_of_nameless nameless

def sampleService : AppConfig := { AppConfig.shipped with auth := sampleAuth, client := sampleClient }

set_option maxRecDepth 8000 in
theorem sample_wsEntry : wsEntry sampleCrates (some 1771000000) sampleService.auth
    sampleService.client sampleHeaders = some ⟨"tenant_1", "user_1", none, false⟩ := by
  decide +kernel

/-- The sample token leads to the same call at both entries. -/
theorem sample_entries : ∃ call,
    wsEntry sampleCrates (some 1771000000) sampleService.auth sampleService.client
      sampleHeaders = some call ∧
    grpcEntry sampleCrates (some 1771000000) sampleService.auth sampleService.client
      sampleHeaders = some call := by
  refine (entries_agree _ _ _ _ (by unfold HeaderMap.Plain; decide)).resolve_left ?_
  rintro ⟨quiet, -⟩
  exact quiet _ sample_wsEntry ⟨_, rfl⟩

end Propeller
