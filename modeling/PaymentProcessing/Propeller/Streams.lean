import PaymentProcessing.Propeller.Lifecycle

/-! The stream that a client sees as a protocol of its own: the acknowledgement of the connection,
then messages of its transport, and nothing after a message that ends the stream. -/
namespace Propeller
open Relational Transition

/-- What the stream of a client may bring next. -/
inductive Expecting where
  | acknowledgement | messages | nothing
  deriving DecidableEq, Repr

/-- A failed send is the last one, unless it is that of the answer to a topic request. -/
def Expecting.after (ok : Bool) : Expecting := if ok then .messages else .nothing

/-- The stream protocol of a front end. -/
def Frontend.next (frontend : Frontend) (e : Expecting) (sent : Output × Bool) : Option Expecting :=
  match e, frontend, sent with
  | .acknowledgement, _, (output, ok) =>
      if output = frontend.connectAck then some (.after ok) else none
  | .messages, .ws, (.frame (.event _), ok) | .messages, .ws, (.frame .ping, ok)
  | .messages, .ws, (.frame (.pong _), ok) => some (.after ok)
  | .messages, .ws, (.frame (.close 1008 "keepalive timeout"), _) => some .nothing
  | .messages, .grpc, (.response (.channelEvent ..), ok) => some (.after ok)
  | .messages, .grpc, (.response (.topicSubscriptionRequestAck ..), _)
  | .messages, .grpc, (.response (.topicUnsubscriptionRequestAck ..), _) => some .messages
  | .messages, .grpc, (.deadlineExceeded "channel keepalive timeout", _) => some .nothing
  | _, _, _ => none

/-- A handler at this await keeps to the protocol from here on. -/
def Stage.Expects (frontend : Frontend) : Stage → Expecting → Prop
  | .subscribing, e => e = .acknowledgement
  | .sending output sent failed, e => ∀ ok, ∃ e', frontend.next e (output, ok) = some e' ∧
      ((if ok then sent else failed) = .loop → e' = .messages)
  | .waiting, e => e = .messages
  | .requesting _ _, e => e = .messages ∧ frontend = .grpc
  | .unsubscribing, _ | .ended, _ => True

namespace Handler
variable {config : ClientConfig} {json : AttributesJson} {s t : Service} {h h' : Handler}

/-- What was sent so far is the beginning of a stream of the protocol, and so is whatever follows. -/
def Conforms (h : Handler) : Prop :=
  ∃ e, run h.frontend.next .acknowledgement h.trace.sends = some e ∧ h.stage.Expects h.frontend e

theorem Conforms.moved (conforms : h.Conforms) (frontend : h'.frontend = h.frontend)
    (sends : h'.trace.sends = h.trace.sends)
    (expects : ∀ e, h.stage.Expects h.frontend e → h'.stage.Expects h.frontend e) : h'.Conforms := by
  obtain ⟨e, sent, expected⟩ := conforms
  exact ⟨e, by rw [frontend, sends, sent], frontend ▸ expects e expected⟩

/-- A send ends, and the handler goes on as the outcome asks for. -/
theorem Conforms.sent (conforms : h.Conforms) (stage : h.stage = .sending output well badly) (ok : Bool)
    (frontend : h'.frontend = h.frontend) (sends : h'.trace.sends = h.trace.sends ++ [(output, ok)])
    (follows : ∀ e, ((if ok then well else badly) = .loop → e = .messages) →
      h'.stage.Expects h.frontend e) : h'.Conforms := by
  obtain ⟨e, before, expected⟩ := conforms
  rw [stage] at expected
  obtain ⟨e', next, loops⟩ := expected ok
  refine ⟨e', ?_, frontend ▸ follows e' loops⟩
  rw [frontend, sends]
  exact run_append_iff.mpr ⟨e, before, run_cons_iff.mpr ⟨e', next, rfl⟩⟩

theorem expects_connectAck (frontend : Frontend) :
    (Stage.sending frontend.connectAck .loop .quit).Expects frontend .acknowledgement := by
  intro ok
  refine ⟨.after ok, by simp [Frontend.next], ?_⟩
  cases ok <;> simp [Expecting.after]

theorem expects_event (frontend : Frontend) (e : TopicEvent) :
    (Stage.sending (frontend.event e) .loop .leave).Expects frontend .messages := by
  intro ok
  cases frontend <;> cases ok <;> simp [Frontend.next, Frontend.event, Expecting.after]

theorem expects_reply (h : Handler) (request : TopicRequest) (redis : Bool)
    (result : Except PropellerError Unit) (grpc : h.frontend = .grpc) :
    (h.reply request redis result).stage.Expects h.frontend .messages := by
  intro ok
  rw [grpc]
  cases request <;> exact ⟨.messages, rfl, fun _ => rfl⟩

/-- Where the handler is back in its loop, or says something, it keeps to the protocol. -/
theorem waiting_expects (waiting : h.stage = .waiting) (other : input.topicRequest = none)
    (stepped : h.step config json s input = some (t, h')) :
    h'.stage.Expects h.frontend .messages := by
  have leaves (left : h.leave config json s = some (t, h')) :
      h'.stage.Expects h.frontend .messages := by
    obtain ⟨u, -, same⟩ := Option.map_eq_some_iff.mp left
    cases same
    trivial
  have stays : h.stage.Expects h.frontend .messages := by rw [waiting]; rfl
  cases input with
  | call ok | add ok text | sent ok => simp [Handler.step, added, Handler.sent, waiting] at stepped
  | frame message =>
    simp only [Handler.step] at stepped
    split at stepped
    · rename_i ready
      cases message with
      | text | binary | pong =>
        cases stepped
        exact stays
      | ping payload =>
        cases stepped
        rw [ready.2]
        intro ok
        cases ok <;> simp [Frontend.next, Expecting.after]
      | close | closed | error => exact leaves stepped
    · contradiction
  | message message =>
    simp only [Handler.step] at stepped
    split at stepped
    · unfold handleClientRequest at stepped
      split at stepped
      · cases other
      · cases other
      · cases stepped
        exact stays
      · cases stepped
        exact stays
      · cases stepped
        exact stays
      · exact leaves stepped
      · exact leaves stepped
    · contradiction
  | event =>
    simp only [Handler.step, if_pos waiting] at stepped
    unfold Handler.event at stepped
    split at stepped
    · contradiction
    · obtain ⟨u, received, same⟩ := Option.map_eq_some_iff.mp stepped
      cases same
      exact expects_event h.frontend _
  | eventsClosed =>
    simp only [Handler.step, if_pos waiting] at stepped
    exact leaves stepped
  | tick late =>
    simp only [Handler.step, if_pos waiting] at stepped
    cases stepped
    cases front : h.frontend with
    | ws =>
      cases late with
      | true =>
        simp only [ticked, front]
        intro ok
        exact ⟨.nothing, rfl, by cases ok <;> simp⟩
      | false =>
        simp only [ticked, front]
        intro ok
        exact ⟨.after ok, rfl, by cases ok <;> simp [Expecting.after]⟩
    | grpc =>
      cases late with
      | true =>
        simp only [ticked, front]
        intro ok
        exact ⟨.nothing, rfl, by cases ok <;> simp⟩
      | false =>
        simp only [ticked, front]
        exact front ▸ stays

/-- A turn of the handler keeps to the protocol. -/
theorem step_conforms (conforms : h.Conforms) (stepped : h.step config json s input = some (t, h')) :
    h'.Conforms := by
  have asks {request : TopicRequest} (waiting : h.stage = .waiting) (asked : input.topicRequest = some request) :
      h.frontend = .grpc := by
    cases input with
    | message message =>
      simp only [Handler.step] at stepped
      split at stepped
      · rename_i ready
        exact ready.2
      · contradiction
    | _ => cases asked
  have replied (request : TopicRequest) (redis : Bool) (result : Except PropellerError Unit)
      (grpc : h.frontend = .grpc) (expects : ∀ e, h.stage.Expects h.frontend e → e = .messages) :
      (h.reply request redis result).Conforms := by
    refine conforms.moved rfl rfl fun e expected => ?_
    rw [expects e expected]
    exact expects_reply h request redis result grpc
  have goes (waiting : h.stage = .waiting) (other : input.topicRequest = none)
      (frontend : h'.frontend = h.frontend) (sends : h'.trace.sends = h.trace.sends) : h'.Conforms := by
    refine conforms.moved frontend sends fun e expected => ?_
    rw [waiting] at expected
    exact expected ▸ waiting_expects waiting other stepped
  have moves := step_moves stepped
  cases moves with
  | called ok t c calling =>
    unfold called
    split
    · rename_i stage _
      refine conforms.moved rfl rfl fun e expected => ?_
      rw [stage] at expected
      exact expected ▸ expects_connectAck h.frontend
    · exact conforms.moved rfl rfl fun _ _ => trivial
    · exact conforms.moved rfl rfl fun _ _ => trivial
    · exact conforms
  | sent ok output well badly stage following =>
    refine conforms.sent stage ok rfl rfl fun e loops => ?_
    exact loops following
  | sentLast ok output well badly t stage =>
    exact conforms.sent stage ok rfl rfl fun _ _ => trivial
  | quit ok output well badly t stage =>
    exact conforms.sent stage ok rfl rfl fun _ _ => trivial
  | left input t waiting other => exact goes waiting other rfl rfl
  | idle input waiting other => exact goes waiting other rfl rfl
  | talks input output well t waiting other => exact goes waiting other rfl rfl
  | refused input request c e waiting asked =>
    refine replied _ _ _ (asks waiting asked) fun e expected => ?_
    rwa [waiting] at expected
  | requested input topic c channel t waiting asked =>
    refine conforms.moved rfl rfl fun e expected => ?_
    rw [waiting] at expected
    exact ⟨expected, asks waiting asked⟩
  | withdrawn input topic c channel broker t waiting asked =>
    refine replied _ _ _ (asks waiting asked) fun e expected => ?_
    rwa [waiting] at expected
  | adding => exact conforms
  | added ok text topic task a t result stage =>
    obtain ⟨e, sent, expected⟩ := conforms
    rw [stage] at expected
    refine replied _ _ _ expected.2 fun e expected => ?_
    rw [stage] at expected
    exact expected.1

end Handler

namespace Server
variable {config : ClientConfig} {json : AttributesJson} {s t : Server}

theorem step_conforms (before : ∀ k ∈ s.handlers, k.Conforms) (h : s.step config json a = some t) :
    ∀ k ∈ t.handlers, k.Conforms := by
  cases a with
  | accept frontend sub tenantId clientId device =>
    obtain ⟨u, connected, rfl⟩ := Option.map_eq_some_iff.mp h
    split
    · exact before
    · intro k member
      rcases List.mem_append.mp member with old | new
      · exact before k old
      · rw [List.mem_singleton.mp new]
        exact ⟨.acknowledgement, rfl, rfl⟩
  | turn sub input =>
    obtain ⟨k, found, goes⟩ := Option.bind_eq_some_iff.mp h
    obtain ⟨⟨u, k'⟩, moved, rfl⟩ := Option.map_eq_some_iff.mp goes
    obtain ⟨member, -⟩ := handler_mem found
    intro x inside
    obtain ⟨y, old, rfl⟩ := mem_updateWhere.mp inside
    split
    · exact Handler.step_conforms (before k member) moved
    · exact before y old
  | background b =>
    simp only [Server.step] at h
    split at h
    · obtain ⟨u, stepped, rfl⟩ := Option.map_eq_some_iff.mp h
      exact before
    · contradiction
  | drop sub =>
    obtain ⟨k, found, goes⟩ := Option.bind_eq_some_iff.mp h
    split at goes
    · obtain ⟨u, stepped, rfl⟩ := Option.map_eq_some_iff.mp goes
      exact before
    · contradiction

/-- In every run, what each client has been sent, with the outcome of each send, is the beginning
of a stream of its front end's protocol. -/
theorem run_conforms (config : ClientConfig) (json : AttributesJson) (schedule : List Action)
    (s : Server) (h : run (step config json) initial schedule = some s) :
    ∀ k ∈ s.handlers, ∃ e, run k.frontend.next .acknowledgement k.trace.sends = some e ∧
      k.stage.Expects k.frontend e :=
  invariant (I := fun s => ∀ k ∈ s.handlers, k.Conforms)
    (fun before stepped => step_conforms before stepped) (by simp [initial]) h

/-- A browser answers the first ping and is silent at the next tick. -/
def silenced : List Action :=
  visit true ++ [.turn 0 (.tick false), .turn 0 (.sent true), .turn 0 (.frame (.pong [])),
    .turn 0 (.tick true), .turn 0 (.sent false)]

theorem silenced_conforms : ∃ s k, run (step AppConfig.shipped.client plainJson) initial silenced = some s ∧
    k ∈ s.handlers ∧ k.trace.sends = [(.frame .connectAck, true), (.frame .ping, true),
      (.frame (.close 1008 "keepalive timeout"), false)] ∧
    ∃ e, run k.frontend.next .acknowledgement k.trace.sends = some e ∧ k.stage.Expects k.frontend e := by
  have sends : (run (step AppConfig.shipped.client plainJson) initial silenced).map
      (fun s => s.handlers.map (·.trace.sends)) = some [[(.frame .connectAck, true),
        (.frame .ping, true), (.frame (.close 1008 "keepalive timeout"), false)]] := by
    decide +kernel
  obtain ⟨s, reached, sent⟩ := Option.map_eq_some_iff.mp sends
  obtain ⟨k, only, streamed⟩ := List.map_eq_singleton_iff.mp sent
  have member : k ∈ s.handlers := by simp [only]
  exact ⟨s, k, reached, member, streamed, run_conforms _ _ _ s reached k member⟩

end Server
end Propeller
