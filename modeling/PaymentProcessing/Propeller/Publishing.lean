import PaymentProcessing.Propeller.GrpcHandler
import PaymentProcessing.Propeller.Jwt

/-! Complete mediation of publishing: whatever a send request says, the broker is touched
only for a publisher with an API key and an identity, and only under that tenant. -/
namespace Propeller
open Effect Transition

section Credentials
variable {crates : Crates} {clock : Option UInt64} {config : AuthConfig}

/-- The request carries a configured key. -/
def CarriesKey (config : AuthConfig) (metadata : HeaderMap) : Prop :=
  ∃ value, metadata.metadata "x-api-key" = some value ∧ textOf value ∈ config.apiKeys

theorem carriesKey_of_authorize (enabled : config.enabled = true)
    (h : authorizeApiKeyGrpc config metadata = .ok ()) : CarriesKey config metadata := by
  simp only [authorizeApiKeyGrpc, enabled, Bool.not_true, Bool.false_eq_true, if_false] at h
  split at h
  · contradiction
  · split at h
    · contradiction
    · rename_i key found
      obtain ⟨value, present, readable⟩ := Option.bind_eq_some_iff.mp found
      split at h
      · rename_i known
        obtain ⟨candidate, member, same⟩ := List.any_eq_true.mp known
        have same : candidate = textOf key := by simpa using same
        refine ⟨value, present, ?_⟩
        rw [← toStr_eq readable, ← same]
        exact member
      · contradiction

end Credentials

/-- A publisher that both checks accept. -/
structure Authorized (h : GrpcPushHandler) (clock : Option UInt64) (metadata : HeaderMap)
    (publisher : AuthContext) : Prop where
  key : CarriesKey h.auth metadata
  identity : ∃ legacy, authenticateGrpc h.crates clock h.auth metadata h.clientConfig =
    .ok (publisher, legacy)

/-- The channel is one of this tenant's, for some client, device or topic. -/
def BuiltFor (tenantId channel : String) : Prop :=
  (∃ clientId, channel = clientChannel tenantId clientId) ∨
    (∃ clientId deviceId, channel = deviceChannel tenantId clientId deviceId) ∨
    ∃ topic, channel = topicChannel tenantId topic

theorem Send.builtFor {send : Send} (checked : send.channel config = .ok name) :
    BuiltFor send.tenant name := by
  cases send with
  | toClient req =>
    simp only [Send.channel, publishToClient, refuse_bind_ok] at checked
    obtain ⟨-, -, -, ⟨⟩⟩ := checked
    exact Or.inl ⟨req.clientId, rfl⟩
  | toDevice req =>
    simp only [Send.channel, publishToClientDevice, refuse_bind_ok] at checked
    obtain ⟨-, -, -, -, ⟨⟩⟩ := checked
    exact Or.inr (Or.inl ⟨req.clientId, req.deviceId, rfl⟩)
  | toTopic req =>
    simp only [Send.channel, publishToTopic, refuse_bind_ok] at checked
    obtain ⟨-, -, -, ⟨⟩⟩ := checked
    exact Or.inr (Or.inr ⟨req.topic, rfl⟩)

/-- From one outlet to another by publishing under this tenant only: the messages handed to
the broker are on its channels, and the service has taken these publish steps. -/
structure Publishes (config : ClientConfig) (json : AttributesJson) (tenantId : String)
    (o t : Outlet) : Prop where
  calls : ∃ calls, t.published = o.published ++ calls ∧
    ∀ m ∈ calls, m.origin.tenant = tenantId ∧ BuiltFor tenantId m.channel
  steps : ∃ schedule, (∀ a ∈ schedule, ∃ send reply, a = Action.publish send reply ∧
      send.tenant = tenantId) ∧
    run (Service.step config json) o.service schedule = some t.service

section Publishes
variable {config : ClientConfig} {json : AttributesJson} {tenantId : String} {o t u : Outlet}

theorem Publishes.refl (o : Outlet) : Publishes config json tenantId o o := by
  constructor
  · exact ⟨[], (List.append_nil _).symm, by simp⟩
  · exact ⟨[], by simp, rfl⟩

theorem Publishes.trans (first : Publishes config json tenantId o t)
    (second : Publishes config json tenantId t u) : Publishes config json tenantId o u := by
  obtain ⟨calls, grown, own⟩ := first.calls
  obtain ⟨calls', grown', own'⟩ := second.calls
  obtain ⟨schedule, publishes, reached⟩ := first.steps
  obtain ⟨schedule', publishes', reached'⟩ := second.steps
  constructor
  · refine ⟨calls ++ calls', ?_, ?_⟩
    · rw [grown', grown, List.append_assoc]
    · intro m member
      cases List.mem_append.mp member with
      | inl before => exact own m before
      | inr after => exact own' m after
  · refine ⟨schedule ++ schedule', ?_, run_append_iff.mpr ⟨t.service, reached, reached'⟩⟩
    intro a member
    cases List.mem_append.mp member with
    | inl before => exact publishes a before
    | inr after => exact publishes' a after

theorem publishTo_publishes (send : Send) (o : Outlet) :
    Publishes config json send.tenant o (exec (publishTo config send) o).2 := by
  rw [publishTo, exec_statement]
  cases checked : send.channel config with
  | error e => exact Publishes.refl o
  | ok channel =>
    constructor
    · refine ⟨[⟨channel, send.event, send⟩], rfl, ?_⟩
      intro m member
      rw [List.mem_singleton.mp member]
      exact ⟨rfl, Send.builtFor checked⟩
    · refine ⟨[.publish send (o.answers.headD (.ok, "")).1], ?_, ?_⟩
      · intro a member
        exact ⟨send, _, List.mem_singleton.mp member, rfl⟩
      · simp only [run, Service.step, checked]
        rfl

theorem publishToTopics_publishes (requests : List SendEventToTopicRequest)
    (own : ∀ req ∈ requests, req.tenantId = tenantId) (o : Outlet) :
    Publishes config json tenantId o (exec (publishToTopics config requests) o).2 := by
  apply exec_forM Publishes.refl Publishes.trans
  intro req member s
  exact own req member ▸ publishTo_publishes (.toTopic req) s

end Publishes

section Calls
variable {h : GrpcPushHandler} {clock : Option UInt64} {metadata : HeaderMap} {json : AttributesJson}

theorem authClient_ok (admitted : h.authClient clock metadata = .ok answer) :
    authenticateGrpc h.crates clock h.auth metadata h.clientConfig = .ok answer := by
  unfold GrpcPushHandler.authClient at admitted
  cases authenticated : authenticateGrpc h.crates clock h.auth metadata h.clientConfig with
  | error e =>
    rw [authenticated] at admitted
    contradiction
  | ok found =>
    rw [authenticated] at admitted
    cases admitted
    rfl

theorem authorizePublisher_ok (enabled : h.auth.enabled = true)
    (ok : h.authorizePublisher clock metadata = .ok publisher) :
    Authorized h clock metadata publisher := by
  unfold GrpcPushHandler.authorizePublisher at ok
  cases keyed : authorizeApiKeyGrpc h.auth metadata with
  | error e =>
    rw [keyed] at ok
    contradiction
  | ok _ =>
    cases admitted : h.authClient clock metadata with
    | error e =>
      rw [keyed, admitted] at ok
      contradiction
    | ok answer =>
      rw [keyed, admitted] at ok
      cases ok
      exact ⟨carriesKey_of_authorize enabled keyed, answer.2, authClient_ok admitted⟩

/-- Each of the four calls publishes under the tenant of its publisher and not otherwise. -/
theorem send_publishes (json : AttributesJson) (h : GrpcPushHandler) (clock : Option UInt64)
    (metadata : HeaderMap) (rpc : SendRpc) (o : Outlet) :
    match h.authorizePublisher clock metadata with
    | .ok publisher => Publishes h.clientConfig json publisher.tenantId o
        (exec (h.send clock metadata rpc) o).2
    | .error _ => (exec (h.send clock metadata rpc) o).2 = o := by
  cases authorized : h.authorizePublisher clock metadata with
  | error e =>
    cases rpc with
    | clientChannel req =>
      simp only [GrpcPushHandler.send, GrpcPushHandler.sendEventToClientChannel, authorized,
        exec_ofResult_error_bind]
    | clientDeviceChannel req =>
      simp only [GrpcPushHandler.send, GrpcPushHandler.sendEventToClientDeviceChannel, authorized,
        exec_ofResult_error_bind]
    | topic req =>
      simp only [GrpcPushHandler.send, GrpcPushHandler.sendEventToTopic, authorized,
        exec_ofResult_error_bind]
    | topics req =>
      simp only [GrpcPushHandler.send, GrpcPushHandler.sendEventToTopics, authorized,
        exec_ofResult_error_bind]
  | ok publisher =>
    cases rpc with
    | clientChannel req =>
      simp only [GrpcPushHandler.send, GrpcPushHandler.sendEventToClientChannel, authorized,
        exec_ofResult_ok_bind, exec_mapError]
      exact publishTo_publishes (.toClient ⟨publisher.tenantId, req.clientId, _, _⟩) o
    | clientDeviceChannel req =>
      simp only [GrpcPushHandler.send, GrpcPushHandler.sendEventToClientDeviceChannel, authorized,
        exec_ofResult_ok_bind, exec_mapError]
      exact publishTo_publishes (.toDevice ⟨publisher.tenantId, req.clientId, req.deviceId, _, _⟩) o
    | topic req =>
      simp only [GrpcPushHandler.send, GrpcPushHandler.sendEventToTopic, authorized,
        exec_ofResult_ok_bind, exec_mapError]
      exact publishTo_publishes (.toTopic ⟨publisher.tenantId, req.topic, _, _⟩) o
    | topics req =>
      simp only [GrpcPushHandler.send, GrpcPushHandler.sendEventToTopics, authorized,
        exec_ofResult_ok_bind, exec_mapError]
      apply publishToTopics_publishes
      intro r member
      obtain ⟨_, _, rfl⟩ := List.mem_map.mp member
      rfl

theorem Authorized.unique (first : Authorized h clock metadata a)
    (second : Authorized h clock metadata b) : a = b := by
  obtain ⟨legacy, one⟩ := first.identity
  obtain ⟨legacy', other⟩ := second.identity
  cases one.symm.trans other
  rfl

end Calls

/-- With auth on, a send request publishes under the tenant of its authorized publisher
only, and one that fails either check leaves everything as it is. -/
theorem send_mediated (h : GrpcPushHandler) (clock : Option UInt64) (metadata : HeaderMap)
    (rpc : SendRpc) (json : AttributesJson) (o : Outlet) (enabled : h.auth.enabled = true) :
    (∀ publisher, Authorized h clock metadata publisher →
      Publishes h.clientConfig json publisher.tenantId o (exec (h.send clock metadata rpc) o).2) ∧
    ((∀ publisher, ¬ Authorized h clock metadata publisher) →
      (exec (h.send clock metadata rpc) o).2 = o) := by
  have effect := send_publishes json h clock metadata rpc o
  cases authorized : h.authorizePublisher clock metadata with
  | error e =>
    rw [authorized] at effect
    have unchanged : (exec (h.send clock metadata rpc) o).2 = o := effect
    constructor
    · intro publisher _
      rw [unchanged]
      exact Publishes.refl o
    · intro _
      exact unchanged
  | ok publisher =>
    rw [authorized] at effect
    have accepted := authorizePublisher_ok enabled authorized
    constructor
    · intro other admitted
      rw [admitted.unique accepted]
      exact effect
    · intro nobody
      exact absurd accepted (nobody publisher)

def sampleHandler : GrpcPushHandler := ⟨sampleCrates, sampleAuth, sampleClient⟩

def sampleTopics : SendRpc :=
  .topics ⟨[⟨"news", some ⟨"update", 0, [104, 105]⟩⟩, ⟨"a:client:b", some ⟨"", 1, [0]⟩⟩]⟩

theorem sample_authorized :
    Authorized sampleHandler (some 1771000000) sampleHeaders sampleContext := by
  constructor
  · exact ⟨asBytes "dev-key", rfl, by decide⟩
  · exact ⟨false, by decide +kernel⟩

theorem sample_send_mediated :
    let after := (exec (sampleHandler.send (some 1771000000) sampleHeaders sampleTopics)
      ⟨.initial, [], []⟩).2
    Publishes sampleClient plainJson "tenant_1" ⟨.initial, [], []⟩ after ∧
      after.published.map (·.channel) =
        ["tenant:tenant_1:topic:news", "tenant:tenant_1:topic:a:client:b"] :=
  ⟨(send_mediated sampleHandler _ _ sampleTopics _ _ rfl).1 _ sample_authorized, by decide +kernel⟩

end Propeller
