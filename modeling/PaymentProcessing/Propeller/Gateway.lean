import PaymentProcessing.Propeller.Fidelity
import PaymentProcessing.Propeller.FrontEnds
import PaymentProcessing.Propeller.Sockets

/-! Propeller as it is reached from outside: requests to connect and to send, with the headers
they come with. Each passes the checks of its front end first, and the send calls publish one
message after the other while everything else goes on. -/
namespace Propeller
open Effect Relational Transition

/-- The publishes that a call makes for its publisher. -/
def SendRpc.sends (publisher : AuthContext) : SendRpc → List Send
  | .clientChannel req =>
      let (bytes, name) := extractEvent req.event
      [.toClient ⟨publisher.tenantId, req.clientId, name, bytes⟩]
  | .clientDeviceChannel req =>
      let (bytes, name) := extractEvent req.event
      [.toDevice ⟨publisher.tenantId, req.clientId, req.deviceId, name, bytes⟩]
  | .topic req => [req.send publisher.tenantId]
  | .topics req => req.requests.map (·.send publisher.tenantId)

theorem SendRpc.sends_tenant {publisher : AuthContext} {rpc : SendRpc}
    (member : send ∈ rpc.sends publisher) : send.tenant = publisher.tenantId := by
  cases rpc with
  | clientChannel | clientDeviceChannel | topic =>
    rw [List.mem_singleton.mp member]
    rfl
  | topics req =>
    obtain ⟨r, -, rfl⟩ := List.mem_map.mp member
    rfl

/-- What a send call does past its checks. -/
theorem exec_send {h : GrpcPushHandler} {clock : Option UInt64} {metadata : HeaderMap}
    (authorized : h.authorizePublisher clock metadata = .ok publisher) (rpc : SendRpc) (o : Outlet) :
    (exec (h.send clock metadata rpc) o).2 =
      (exec ((rpc.sends publisher).forM (publishTo h.clientConfig)) o).2 := by
  have once (send : Send) : (exec (publishTo h.clientConfig send) o).2 =
      (exec ([send].forM (publishTo h.clientConfig)) o).2 := by
    rw [exec_forM_cons]
    cases exec (publishTo h.clientConfig send) o with
    | mk answer t => cases answer <;> rfl
  cases rpc with
  | clientChannel req =>
    simp only [GrpcPushHandler.send, GrpcPushHandler.sendEventToClientChannel, authorized,
      exec_ofResult_ok_bind, exec_mapError]
    exact once _
  | clientDeviceChannel req =>
    simp only [GrpcPushHandler.send, GrpcPushHandler.sendEventToClientDeviceChannel, authorized,
      exec_ofResult_ok_bind, exec_mapError]
    exact once _
  | topic req =>
    simp only [GrpcPushHandler.send, GrpcPushHandler.sendEventToTopic, authorized,
      exec_ofResult_ok_bind, exec_mapError]
    exact once (req.send publisher.tenantId)
  | topics req =>
    simp only [GrpcPushHandler.send, GrpcPushHandler.sendEventToTopics, authorized,
      exec_ofResult_ok_bind, exec_mapError, publishToTopics, SendRpc.sends]
    simp only [List.forM_eq_forM, List.forM_map]
    rfl

/-- Neither the start of a handler nor a publish. -/
def Server.Action.internal : Server.Action → Bool
  | .accept .. | .background (.publish ..) => false
  | _ => true

namespace Server
variable {config : ClientConfig} {json : AttributesJson} {s t : Server}

/-- What goes on inside is no publish and no new connection for the service. -/
theorem step_internal (h : s.step config json a = some t) (internal : a.internal = true) :
    t.service = s.service ∨
    ∃ b, s.service.step config json b = some t.service ∧ ∀ P Q, Admits P Q b := by
  cases a with
  | accept => cases internal
  | turn sub input =>
    obtain ⟨k, found, goes⟩ := Option.bind_eq_some_iff.mp h
    obtain ⟨⟨u, k'⟩, moved, rfl⟩ := Option.map_eq_some_iff.mp goes
    rcases (Handler.step_moves moved).service with same | ⟨b, calls, stepped⟩
    · exact Or.inl same
    · exact Or.inr ⟨b, stepped, fun P Q => by cases calls <;> trivial⟩
  | background b =>
    simp only [Server.step] at h
    split at h
    · rename_i allowed
      obtain ⟨u, stepped, rfl⟩ := Option.map_eq_some_iff.mp h
      refine Or.inr ⟨b, stepped, fun P Q => ?_⟩
      cases b with
      | publish => cases internal
      | connect => cases allowed
      | _ => trivial
    · contradiction
  | drop sub =>
    obtain ⟨k, found, goes⟩ := Option.bind_eq_some_iff.mp h
    split at goes
    · obtain ⟨u, stepped, rfl⟩ := Option.map_eq_some_iff.mp goes
      exact Or.inr ⟨.drop sub, stepped, fun _ _ => trivial⟩
    · contradiction

theorem step_accept
    (h : s.step config json (.accept frontend sub tenantId clientId device) = some t) :
    s.service.step config json (.connect sub tenantId clientId device) = some t.service := by
  obtain ⟨u, connected, rfl⟩ := Option.map_eq_some_iff.mp h
  rw [connected]
  split <;> rfl

theorem step_publish (h : s.step config json (.background (.publish send reply)) = some t) :
    s.service.step config json (.publish send reply) = some t.service := by
  obtain ⟨u, published, rfl⟩ := Option.map_eq_some_iff.mp h
  exact published

end Server

/-- The server with the WebSocket connections that are being upgraded, and the publishes that its
send calls have yet to make. -/
structure Gateway where
  server : Server
  upgrades : List SubscribeCall
  calls : List (List Send)

namespace Gateway

inductive Action where
  | wsConnect (clock : Option UInt64) (headers : HeaderMap)
  /-- An upgrade is through, and `handle_ws` starts. -/
  | upgraded (upgrade : Nat) (sub : Uuid)
  | channel (clock : Option UInt64) (metadata : HeaderMap) (sub : Uuid)
  | send (clock : Option UInt64) (metadata : HeaderMap) (rpc : SendRpc)
  /-- The awaited publish of a send call ends. -/
  | published (call : Nat) (reply : Reply)
  | server (a : Server.Action)
  deriving DecidableEq, Repr

def initial : Gateway := ⟨.initial, [], []⟩

section Step
variable (crates : Crates) (config : AppConfig) (json : AttributesJson)

/-- The handler of `main`. -/
def handler : GrpcPushHandler := ⟨crates, config.auth, config.client⟩

/-- A request may lead to no call of `subscribe_client`. -/
def subscribe (g : Gateway) (frontend : Frontend) (sub : Uuid) : Option SubscribeCall → Option Gateway
  | none => some g
  | some call =>
      (g.server.step config.client json
        (.accept frontend sub call.tenantId call.clientId call.device)).map fun s =>
          { g with server := s }

def step (g : Gateway) : Action → Option Gateway
  | .wsConnect clock headers =>
      let upgrade := wsConnect crates clock config.auth config.client headers
      some { g with upgrades := g.upgrades ++ upgrade.toList }
  | .upgraded upgrade sub =>
      g.upgrades[upgrade]?.bind fun call =>
        { g with upgrades := g.upgrades.eraseIdx upgrade }.subscribe config json .ws sub (handleWs call)
  | .channel clock metadata sub =>
      g.subscribe config json .grpc sub (grpcEntry crates clock config.auth config.client metadata)
  | .send clock metadata rpc =>
      match (handler crates config).authorizePublisher clock metadata with
      | .error _ => some g
      | .ok publisher => some { g with calls := g.calls ++ [rpc.sends publisher] }
  | .published call reply =>
      match g.calls[call]? with
      | some (send :: rest) =>
          -- the first error ends the call
          let todo := if (send.channel config.client).isOk ∧ reply = .ok then rest else []
          (g.server.step config.client json (.background (.publish send reply))).map fun s =>
            { g with server := s, calls := g.calls.set call todo }
      | _ => none
  | .server a =>
      if a.internal then
        (g.server.step config.client json a).map fun s => { g with server := s }
      else none

end Step

/-- A step is one of the server or none there; what the requests add to it has passed the checks
of their front end. -/
inductive Moves (crates : Crates) (config : AppConfig) (json : AttributesJson) (g : Gateway) :
    Action → Gateway → Prop where
  | answered (a) : Moves crates config json g a g
  | upgrading (clock headers call) :
      wsConnect crates clock config.auth config.client headers = some call →
      Moves crates config json g (.wsConnect clock headers)
        { g with upgrades := g.upgrades ++ [call] }
  | turnedAway (upgrade sub) : Moves crates config json g (.upgraded upgrade sub)
      { g with upgrades := g.upgrades.eraseIdx upgrade }
  | upgraded (upgrade sub call s) : g.upgrades[upgrade]? = some call →
      g.server.step config.client json
        (.accept .ws sub call.tenantId call.clientId call.device) = some s →
      Moves crates config json g (.upgraded upgrade sub)
        { g with server := s, upgrades := g.upgrades.eraseIdx upgrade }
  | opened (clock metadata sub call s) :
      grpcEntry crates clock config.auth config.client metadata = some call →
      g.server.step config.client json
        (.accept .grpc sub call.tenantId call.clientId call.device) = some s →
      Moves crates config json g (.channel clock metadata sub) { g with server := s }
  | sending (clock metadata rpc publisher) :
      (handler crates config).authorizePublisher clock metadata = .ok publisher →
      Moves crates config json g (.send clock metadata rpc)
        { g with calls := g.calls ++ [rpc.sends publisher] }
  | published (call reply send rest todo s) : g.calls[call]? = some (send :: rest) → todo ⊆ rest →
      g.server.step config.client json (.background (.publish send reply)) = some s →
      Moves crates config json g (.published call reply)
        { g with server := s, calls := g.calls.set call todo }
  | server (a s) : a.internal = true → g.server.step config.client json a = some s →
      Moves crates config json g (.server a) { g with server := s }

section Runs
variable {crates : Crates} {config : AppConfig} {json : AttributesJson} {g t : Gateway}

theorem handleWs_eq (h : handleWs call = some other) : other = call := by
  unfold handleWs at h
  split at h
  · contradiction
  · exact (Option.some.inj h).symm

theorem step_moves (h : g.step crates config json a = some t) : Moves crates config json g a t := by
  cases a with
  | wsConnect clock headers =>
    simp only [step] at h
    cases admitted : wsConnect crates clock config.auth config.client headers with
    | none =>
      rw [admitted, Option.toList_none, List.append_nil] at h
      cases h
      exact .answered _
    | some call =>
      rw [admitted, Option.toList_some] at h
      cases h
      exact .upgrading clock headers call admitted
  | upgraded upgrade sub =>
    obtain ⟨call, found, goes⟩ := Option.bind_eq_some_iff.mp h
    cases handled : handleWs call with
    | none =>
      rw [handled] at goes
      cases goes
      exact .turnedAway upgrade sub
    | some other =>
      rw [handled] at goes
      cases handleWs_eq handled
      obtain ⟨s, accepted, rfl⟩ := Option.map_eq_some_iff.mp goes
      exact .upgraded upgrade sub _ s found accepted
  | channel clock metadata sub =>
    simp only [step] at h
    cases entered : grpcEntry crates clock config.auth config.client metadata with
    | none =>
      rw [entered] at h
      cases h
      exact .answered _
    | some call =>
      rw [entered] at h
      obtain ⟨s, accepted, rfl⟩ := Option.map_eq_some_iff.mp h
      exact .opened clock metadata sub call s entered accepted
  | send clock metadata rpc =>
    simp only [step] at h
    split at h
    · cases h
      exact .answered _
    · rename_i publisher authorized
      cases h
      exact .sending clock metadata rpc publisher authorized
  | published call reply =>
    simp only [step] at h
    split at h
    · rename_i send rest next
      obtain ⟨s, published, rfl⟩ := Option.map_eq_some_iff.mp h
      refine .published call reply send rest _ s next ?_ published
      split
      · exact List.Subset.refl rest
      · exact List.nil_subset rest
    · contradiction
  | server a =>
    simp only [step] at h
    split at h
    · rename_i internal
      obtain ⟨s, stepped, rfl⟩ := Option.map_eq_some_iff.mp h
      exact .server a s internal stepped
    · contradiction

theorem Moves.simulates (h : Moves crates config json g a t) :
    t.server = g.server ∨ ∃ b, g.server.step config.client json b = some t.server := by
  cases h with
  | answered | upgrading | turnedAway | sending => exact Or.inl rfl
  | upgraded upgrade sub call s found accepted => exact Or.inr ⟨_, accepted⟩
  | opened clock metadata sub call s entered accepted => exact Or.inr ⟨_, accepted⟩
  | published call reply send rest todo s next fewer published => exact Or.inr ⟨_, published⟩
  | server a s internal stepped => exact Or.inr ⟨a, stepped⟩

/-- Every run is one of the server, which all that is known of its runs applies to. -/
theorem run_server (h : run (step crates config json) initial schedule = some g) :
    ∃ calls, run (Server.step config.client json) .initial calls = some g.server := by
  refine invariant (I := fun g => ∃ calls, run (Server.step config.client json) .initial calls =
    some g.server) ?_ ⟨[], rfl⟩ h
  rintro g a t ⟨calls, reached⟩ stepped
  rcases (step_moves stepped).simulates with same | ⟨b, steps⟩
  · exact ⟨calls, same ▸ reached⟩
  · exact ⟨calls ++ [b], run_append_iff.mpr ⟨_, reached, run_cons_iff.mpr ⟨_, steps, rfl⟩⟩⟩

end Runs

section Alone
variable {crates : Crates} {config : AppConfig} {json : AttributesJson} {g t : Gateway} {i : Nat}
  {replies : List Reply} {todo rest : List Send}

/-- A publish does to the service what `publishTo` does for this answer. -/
theorem step_published (next : g.calls[i]? = some (send :: rest)) (text : String)
    (answers : List (Reply × String)) (past : List (Message Send)) :
    g.step crates config json (.published i reply) = some { g with
      server := ⟨(exec (publishTo config.client send)
        ⟨g.server.service, (reply, text) :: answers, past⟩).2.service, g.server.handlers⟩
      calls := g.calls.set i
        (if (send.channel config.client).isOk ∧ reply = .ok then rest else []) } := by
  simp only [step, next, Server.step, Propeller.Action.background, if_true, Service.step, publishTo,
    exec_statement]
  cases send.channel config.client with
  | error e => rfl
  | ok channel => rfl

/-- Nothing is left of a call without publishes. -/
theorem run_published_nil (next : g.calls[i]?.getD [] = [])
    (h : run (step crates config json) g (replies.map (Action.published i)) = some t) :
    t = g ∧ replies = [] := by
  cases replies with
  | nil =>
    cases h
    exact ⟨rfl, rfl⟩
  | cons reply rest =>
    obtain ⟨u, stepped, -⟩ := run_cons_iff.mp h
    simp only [step] at stepped
    split at stepped
    · rename_i left
      rw [left] at next
      cases next
    · contradiction

/-- The publishes of a call, with nothing in between. -/
theorem run_published (next : g.calls[i]? = some todo)
    (h : run (step crates config json) g (replies.map (Action.published i)) = some t)
    (done : t.calls[i]?.getD [] = []) (past : List (Message Send)) :
    t.server = ⟨(exec (todo.forM (publishTo config.client))
      ⟨g.server.service, replies.map (·, ""), past⟩).2.service, g.server.handlers⟩ := by
  induction todo generalizing g replies past with
  | nil =>
    obtain ⟨rfl, -⟩ := run_published_nil (by rw [next]; rfl) h
    rfl
  | cons send rest ih =>
    cases replies with
    | nil =>
      cases h
      rw [next] at done
      cases done
    | cons reply later =>
      obtain ⟨u, stepped, onward⟩ := run_cons_iff.mp h
      rw [step_published next "" (later.map (·, "")) past] at stepped
      have inside := (List.getElem?_eq_some_iff.mp next).1
      rw [exec_forM_cons, List.map_cons]
      -- what the first publish comes to decides whether there is a next one
      cases checked : send.channel config.client with
      | error e =>
        cases stepped
        obtain ⟨rfl, -⟩ := run_published_nil
          (by simp [checked, Except.isOk, Except.toBool, inside]) onward
        simp [publishTo, checked]
      | ok channel =>
        cases reply with
        | ok =>
          cases stepped
          have later := ih (by simp [checked, Except.isOk, Except.toBool, inside]) onward
            (past ++ [⟨channel, send.event, send⟩])
          simpa [publishTo, checked] using later
        | lost =>
          cases stepped
          obtain ⟨rfl, -⟩ := run_published_nil (by simp [inside]) onward
          simp [publishTo, checked]
        | refused =>
          cases stepped
          obtain ⟨rfl, -⟩ := run_published_nil (by simp [inside]) onward
          simp [publishTo, checked]

end Alone

/-- Where nothing comes between the publishes of a send call, the server is in the end what the
call of the handler makes of it when the broker answers so. -/
theorem send_alone (crates : Crates) (config : AppConfig) (json : AttributesJson) (g t : Gateway)
    (clock : Option UInt64) (metadata : HeaderMap) (rpc : SendRpc) (replies : List Reply)
    (h : run (step crates config json) g
      (.send clock metadata rpc :: replies.map (Action.published g.calls.length)) = some t)
    (done : t.calls[g.calls.length]?.getD [] = []) :
    t.server = ⟨(exec ((handler crates config).send clock metadata rpc)
      ⟨g.server.service, replies.map (·, ""), []⟩).2.service, g.server.handlers⟩ := by
  obtain ⟨u, stepped, onward⟩ := run_cons_iff.mp h
  simp only [step] at stepped
  cases authorized : (handler crates config).authorizePublisher clock metadata with
  | error e =>
    rw [authorized] at stepped
    cases stepped
    obtain ⟨rfl, -⟩ := run_published_nil (by simp) onward
    have refused := send_publishes json (handler crates config) clock metadata rpc
      ⟨t.server.service, replies.map (·, ""), []⟩
    rw [authorized] at refused
    rw [refused]
  | ok publisher =>
    rw [authorized] at stepped
    cases stepped
    rw [exec_send authorized]
    exact run_published (by simp) onward done []

set_option maxRecDepth 8000 in
theorem sample_send_alone : ∃ t, run (step sampleCrates sampleService plainJson) initial
      (.send (some 1771000000) sampleHeaders sampleTopics ::
        [Reply.ok, .lost].map (Action.published 0)) = some t ∧
    t.server = ⟨(exec (sampleHandler.send (some 1771000000) sampleHeaders sampleTopics)
      ⟨.initial, [(.ok, ""), (.lost, "")], []⟩).2.service, []⟩ := by
  have calls : (run (step sampleCrates sampleService plainJson) initial
      (.send (some 1771000000) sampleHeaders sampleTopics ::
        [Reply.ok, .lost].map (Action.published 0))).map Gateway.calls = some [[]] := by
    decide +kernel
  obtain ⟨t, reached, finished⟩ := Option.map_eq_some_iff.mp calls
  exact ⟨t, reached, send_alone sampleCrates sampleService plainJson initial t (some 1771000000)
    sampleHeaders sampleTopics [.ok, .lost] reached (by simp [finished, initial])⟩

/-- A client joins with its token, and an event is sent to it. -/
def paid : List Action :=
  [.wsConnect (some 1771000000) sampleHeaders, .upgraded 0 0, .server (.turn 0 (.call true)),
    .server (.turn 0 (.call true)), .server (.turn 0 (.call true)), .server (.turn 0 (.sent true)),
    .send (some 1771000000) sampleHeaders (.clientChannel ⟨"user_1", some ⟨"paid", 0, [1]⟩⟩),
    .published 0 .ok, .server (.background (.deliver ⟨0, none, 0⟩)), .server (.turn 0 .event)]

end Gateway
end Propeller
