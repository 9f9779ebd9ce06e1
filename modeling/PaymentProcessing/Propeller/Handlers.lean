import PaymentProcessing.Propeller.GrpcHandler
import PaymentProcessing.Propeller.PushMoves
import PaymentProcessing.Propeller.WsHandler

/-! The two front ends: `handle_ws`, and `GrpcPushHandler::channel` with the task it spawns. A
handler stands at one of its awaits, and anything else may happen before it goes on. -/
namespace Propeller
open Relational

namespace Proto

structure ResponseStatus where
  success : Bool
  errorCode : String
  message : List (String × String)
  errorType : String
  deriving DecidableEq, Repr

inductive ChannelRequest where
  | topicSubscriptionRequest (topic : String)
  | topicUnsubscriptionRequest (topic : String)
  | channelEvent
  | channelEventAck
  deriving DecidableEq, Repr

inductive ChannelResponse where
  | connectAck (status : ResponseStatus)
  | channelEvent (topic : String) (event : Event)
  | topicSubscriptionRequestAck (topic : String) (status : ResponseStatus)
  | topicUnsubscriptionRequestAck (topic : String) (status : ResponseStatus)
  deriving DecidableEq, Repr

end Proto

def okStatus : Proto.ResponseStatus := ⟨true, "", [], ""⟩

def errStatus (err : String) : Proto.ResponseStatus := ⟨false, "", [("message", err)], ""⟩

/-- What a handler hands to its client. -/
inductive Output where
  | frame (frame : Frame)
  | response (response : Proto.ChannelResponse)
  | deadlineExceeded (message : String)
  deriving DecidableEq, Repr

inductive Frontend where
  | ws | grpc
  deriving DecidableEq, Repr

namespace Frontend

def connectAck : Frontend → Output
  | .ws => .frame .connectAck
  | .grpc => .response (.connectAck okStatus)

def event (e : TopicEvent) : Frontend → Output
  | .ws => .frame (.event e)
  | .grpc => .response (.channelEvent e.topic ⟨"", 0, e.event⟩)

end Frontend

/-- A request about a topic. -/
inductive TopicRequest where
  | subscribe (topic : String)
  | unsubscribe (topic : String)
  deriving DecidableEq, Repr

def TopicRequest.ack : TopicRequest → Proto.ResponseStatus → Proto.ChannelResponse
  | .subscribe topic => .topicSubscriptionRequestAck topic
  | .unsubscribe topic => .topicUnsubscriptionRequestAck topic

/-- What follows a send: the loop, `break`, or `return`. -/
inductive Next where
  | loop | leave | quit
  deriving DecidableEq, Repr

/-- The await at which a handler stands. -/
inductive Stage where
  /-- `subscribe_client` -/
  | subscribing
  /-- A send, with what follows when it works and when it fails. -/
  | sending (output : Output) (sent failed : Next)
  /-- `select!` -/
  | waiting
  /-- `add_subscription`, for a topic request -/
  | requesting (topic : String) (task : TaskId)
  /-- `unsubscribe_client` -/
  | unsubscribing
  | ended
  deriving DecidableEq, Repr

/-- What a handler has done so far; nothing reads it. -/
structure Trace where
  /-- `subscribe_client` has returned a subscription. -/
  subscribed : Bool
  /-- Calls of `unsubscribe_client`. -/
  unsubscribes : Nat
  /-- The topic requests answered, each with whether Redis did what was asked of it. -/
  handled : List (TopicRequest × Bool)
  /-- The sends that ended, each with whether it worked. -/
  sends : List (Output × Bool)
  deriving DecidableEq, Repr

structure Handler where
  sub : Uuid
  frontend : Frontend
  stage : Stage
  trace : Trace
  deriving DecidableEq, Repr

/-- What `inbound.message()` yields. -/
inductive Inbound where
  | request (request : Option Proto.ChannelRequest)
  | closed
  | error
  deriving DecidableEq, Repr

/-- How an await of a handler ends. -/
inductive Input where
  /-- The awaited call of `subscribe_client` or `unsubscribe_client`. -/
  | call (ok : Bool)
  /-- The awaited call of `add_subscription`, with the text of its error. -/
  | add (ok : Bool) (text : String)
  | sent (ok : Bool)
  | frame (message : Incoming)
  | message (message : Inbound)
  | event
  | eventsClosed
  /-- A tick, with the verdict on the time since the last pong or the last message. -/
  | tick (late : Bool)
  deriving DecidableEq, Repr

/-- The result of `add_subscription` when its awaited call ends, if that is its last one. -/
def Adding.result (a : Adding) (ok : Bool) (text : String) : Option (Except PropellerError Unit) :=
  match a.phase, ok with
  | .inserting, _ => some (.ok ())
  | .connecting, true | .subscribing, true => none
  | .connecting, false => some (.error (.internal "failed to get pubsub connection"))
  | .subscribing, false => some (.error (.internal text))

namespace Handler

def enter (h : Handler) (stage : Stage) : Handler := { h with stage := stage }

/-- `handle_client_request` has the result of a topic request and sends its acknowledgement. -/
def reply (h : Handler) (request : TopicRequest) (redis : Bool) (result : Except PropellerError Unit) :
    Handler :=
  let status := match result with
    | .ok () => okStatus
    | .error e => errStatus e.toString
  { h with
    stage := .sending (.response (request.ack status)) .loop .loop
    trace := { h.trace with handled := h.trace.handled ++ [(request, redis)] } }

/-- The call of the service that the handler waits for has come to this phase. -/
def called (h : Handler) (phase : Phase) : Handler :=
  match h.stage, phase with
  | .subscribing, .subscribed =>
      { h with
        stage := .sending h.frontend.connectAck .loop .quit
        trace := { h.trace with subscribed := true } }
  | .subscribing, .failed | .unsubscribing, .closed => h.enter .ended
  | _, _ => h

section Step
variable (config : ClientConfig) (json : AttributesJson) (s : Service) (h : Handler)

/-- `break`, and the call of `unsubscribe_client` after the loop -/
def leave : Option (Service × Handler) :=
  (s.step config json (.disconnect h.sub)).map fun t =>
    (t, { h with
      stage := .unsubscribing
      trace := { h.trace with unsubscribes := h.trace.unsubscribes + 1 } })

def proceed : Next → Option (Service × Handler)
  | .loop => some (s, h.enter .waiting)
  | .leave => h.leave config json s
  | .quit => (s.step config json (.abandon h.sub)).map fun t => (t, h.enter .ended)

def sent (ok : Bool) : Option (Service × Handler) :=
  match h.stage with
  | .sending output sent failed =>
      -- a gRPC handler still has the receiver of its channel when it sends the first message
      if ok = false ∧ h.frontend = .grpc ∧ failed = .quit then none
      else
        let logged : Handler := { h with trace := { h.trace with sends := h.trace.sends ++ [(output, ok)] } }
        logged.proceed config json s (if ok then sent else failed)
  | _ => none

/-- The branch of `ws_rx.next()` -/
def received : Incoming → Option (Service × Handler)
  | .text _ | .binary _ | .pong _ => some (s, h)
  | .ping payload => some (s, h.enter (.sending (.frame (.pong payload)) .loop .leave))
  | .close | .closed | .error => h.leave config json s

/-- `topic_subscribe` up to the first await of `add_subscription` -/
def topicSubscribe (topic : String) : Option (Service × Handler) :=
  (s.connection h.sub).bind fun c =>
    match scopedTopic c.tenantId topic with
    | .error e => some (s, h.reply (.subscribe topic) true (.error e))
    | .ok channel =>
      match s.broker.checkAdd channel h.sub with
      | .error e => some (s, h.reply (.subscribe topic) true (.error (.internal e)))
      | .ok _ => (s.step config json (.topicSubscribe h.sub topic)).map fun t =>
          (t, h.enter (.requesting topic ⟨h.sub, some channel, s.next⟩))

/-- `topic_unsubscribe` -/
def topicUnsubscribe (topic : String) : Option (Service × Handler) :=
  (s.connection h.sub).bind fun c =>
    match scopedTopic c.tenantId topic with
    | .error e => some (s, h.reply (.unsubscribe topic) true (.error e))
    | .ok channel =>
      match s.broker.removeSubscription channel h.sub with
      | .error e => some (s, h.reply (.unsubscribe topic) true (.error (.internal e)))
      | .ok _ => (s.step config json (.topicUnsubscribe h.sub topic)).map fun t =>
          (t, h.reply (.unsubscribe topic) true (.ok ()))

/-- The branch of `inbound.message()`, with `handle_client_request` -/
def handleClientRequest : Inbound → Option (Service × Handler)
  | .request (some (.topicSubscriptionRequest topic)) => h.topicSubscribe config json s topic
  | .request (some (.topicUnsubscriptionRequest topic)) => h.topicUnsubscribe config json s topic
  | .request (some .channelEvent) | .request (some .channelEventAck) | .request none => some (s, h)
  | .closed | .error => h.leave config json s

/-- `add_subscription` goes on. -/
def added (ok : Bool) (text : String) : Option (Service × Handler) :=
  match h.stage with
  | .requesting topic task =>
      (s.adding.find? (·.task = task)).bind fun a =>
        (s.step config json (.advanceAdd task ok)).map fun t =>
          match a.result ok text with
          | none => (t, h)
          | some result => (t, h.reply (.subscribe topic) result.isOk result)
  | _ => none

/-- The branch of `event_rx.recv()` -/
def event : Option (Service × Handler) :=
  match s.broker.queues h.sub with
  | [] => none
  | message :: _ => (s.step config json (.receive h.sub)).map fun t =>
      (t, h.enter (.sending (h.frontend.event ⟨message.channel, message.data⟩) .loop .leave))

/-- The branch of the tick -/
def ticked (late : Bool) : Handler :=
  match h.frontend, late with
  | .ws, true => h.enter (.sending (.frame (.close 1008 "keepalive timeout")) .leave .leave)
  | .ws, false => h.enter (.sending (.frame .ping) .loop .leave)
  | .grpc, true => h.enter (.sending (.deadlineExceeded "channel keepalive timeout") .leave .leave)
  | .grpc, false => h

def step : Input → Option (Service × Handler)
  | .call ok =>
      if h.stage = .subscribing ∨ h.stage = .unsubscribing then
        (s.step config json (.advance h.sub ok)).bind fun t =>
          (t.connection h.sub).map fun c => (t, h.called c.phase)
      else none
  | .add ok text => h.added config json s ok text
  | .sent ok => h.sent config json s ok
  | .frame message =>
      if h.stage = .waiting ∧ h.frontend = .ws then h.received config json s message else none
  | .message message =>
      if h.stage = .waiting ∧ h.frontend = .grpc then h.handleClientRequest config json s message
      else none
  | .event => if h.stage = .waiting then h.event config json s else none
  | .eventsClosed => if h.stage = .waiting then h.leave config json s else none
  | .tick late => if h.stage = .waiting then some (s, h.ticked late) else none

end Step
end Handler

/-- The topic request that an input brings. -/
def Input.topicRequest : Input → Option TopicRequest
  | .message (.request (some (.topicSubscriptionRequest topic))) => some (.subscribe topic)
  | .message (.request (some (.topicUnsubscriptionRequest topic))) => some (.unsubscribe topic)
  | _ => none

/-- The service refuses a topic request at once. -/
def Service.Refuses (s : Service) (sub : Uuid) (tenantId : String) (e : PropellerError) :
    TopicRequest → Prop
  | .subscribe topic => scopedTopic tenantId topic = .error e ∨ ∃ channel text,
      scopedTopic tenantId topic = .ok channel ∧ s.broker.checkAdd channel sub = .error text ∧
        e = .internal text
  | .unsubscribe topic => scopedTopic tenantId topic = .error e ∨ ∃ channel text,
      scopedTopic tenantId topic = .ok channel ∧
        s.broker.removeSubscription channel sub = .error text ∧ e = .internal text

namespace Handler
variable {config : ClientConfig} {json : AttributesJson} {s t : Service} {h h' : Handler}

def log (h : Handler) (output : Output) (ok : Bool) : Handler :=
  { h with trace := { h.trace with sends := h.trace.sends ++ [(output, ok)] } }

def leaving (h : Handler) : Handler :=
  { h with
    stage := .unsubscribing
    trace := { h.trace with unsubscribes := h.trace.unsubscribes + 1 } }

/-- The steps of a handler. -/
inductive Moves (config : ClientConfig) (json : AttributesJson) (s : Service) (h : Handler) :
    Input → Service → Handler → Prop where
  | called (ok t c) : h.stage = .subscribing ∨ h.stage = .unsubscribing →
      s.step config json (.advance h.sub ok) = some t → t.connection h.sub = some c →
      Moves config json s h (.call ok) t (h.called c.phase)
  | sent (ok output sent failed) : h.stage = .sending output sent failed →
      (if ok then sent else failed) = .loop →
      Moves config json s h (.sent ok) s ((h.log output ok).enter .waiting)
  | sentLast (ok output sent failed t) : h.stage = .sending output sent failed →
      (if ok then sent else failed) = .leave → s.step config json (.disconnect h.sub) = some t →
      Moves config json s h (.sent ok) t (h.log output ok).leaving
  | quit (ok output sent failed t) : h.stage = .sending output sent failed →
      (if ok then sent else failed) = .quit → s.step config json (.abandon h.sub) = some t →
      Moves config json s h (.sent ok) t ((h.log output ok).enter .ended)
  | left (input t) : h.stage = .waiting → input.topicRequest = none →
      s.step config json (.disconnect h.sub) = some t → Moves config json s h input t h.leaving
  | idle (input) : h.stage = .waiting → input.topicRequest = none → Moves config json s h input s h
  | talks (input output sent t) : h.stage = .waiting → input.topicRequest = none → sent ≠ .quit →
      (∀ request status, output ≠ .response (TopicRequest.ack request status)) →
      (t = s ∨ s.step config json (.receive h.sub) = some t) →
      Moves config json s h input t (h.enter (.sending output sent .leave))
  | refused (input request c e) : h.stage = .waiting → input.topicRequest = some request →
      s.connection h.sub = some c → s.Refuses h.sub c.tenantId e request →
      Moves config json s h input s (h.reply request true (.error e))
  | requested (input topic c channel t) : h.stage = .waiting →
      input.topicRequest = some (.subscribe topic) → s.connection h.sub = some c →
      scopedTopic c.tenantId topic = .ok channel → s.broker.checkAdd channel h.sub = .ok () →
      s.step config json (.topicSubscribe h.sub topic) = some t →
      Moves config json s h input t (h.enter (.requesting topic ⟨h.sub, some channel, s.next⟩))
  | withdrawn (input topic c channel broker t) : h.stage = .waiting →
      input.topicRequest = some (.unsubscribe topic) → s.connection h.sub = some c →
      scopedTopic c.tenantId topic = .ok channel →
      s.broker.removeSubscription channel h.sub = .ok broker →
      s.step config json (.topicUnsubscribe h.sub topic) = some t →
      Moves config json s h input t (h.reply (.unsubscribe topic) true (.ok ()))
  | adding (ok text topic task a t) : h.stage = .requesting topic task →
      s.adding.find? (·.task = task) = some a → s.step config json (.advanceAdd task ok) = some t →
      a.result ok text = none → Moves config json s h (.add ok text) t h
  | added (ok text topic task a t result) : h.stage = .requesting topic task →
      s.adding.find? (·.task = task) = some a → s.step config json (.advanceAdd task ok) = some t →
      a.result ok text = some result →
      Moves config json s h (.add ok text) t (h.reply (.subscribe topic) result.isOk result)

theorem called_sub (h : Handler) (phase : Phase) : (h.called phase).sub = h.sub := by
  unfold called
  split <;> rfl

theorem Moves.sub (moves : Moves config json s h input t h') : h'.sub = h.sub := by
  cases moves with
  | called ok t c => exact called_sub h c.phase
  | _ => rfl

/-- The steps of the service that a handler takes. -/
inductive Calls (h : Handler) : Action → Prop where
  | advance (ok) : Calls h (.advance h.sub ok)
  | disconnect : Calls h (.disconnect h.sub)
  | abandon : Calls h (.abandon h.sub)
  | receive : Calls h (.receive h.sub)
  | topicSubscribe (topic) : Calls h (.topicSubscribe h.sub topic)
  | topicUnsubscribe (topic) : Calls h (.topicUnsubscribe h.sub topic)
  | advanceAdd (topic task ok) : h.stage = .requesting topic task → Calls h (.advanceAdd task ok)

theorem Moves.service (moves : Moves config json s h input t h') :
    t = s ∨ ∃ a, h.Calls a ∧ s.step config json a = some t := by
  cases moves with
  | called ok t c calling stepped => exact Or.inr ⟨_, .advance ok, stepped⟩
  | sent | idle | refused => exact Or.inl rfl
  | sentLast ok output sent failed t stage following stepped => exact Or.inr ⟨_, .disconnect, stepped⟩
  | quit ok output sent failed t stage following stepped => exact Or.inr ⟨_, .abandon, stepped⟩
  | left input t waiting other stepped => exact Or.inr ⟨_, .disconnect, stepped⟩
  | talks input output sent t waiting other loops unasked received =>
    exact received.imp_right fun stepped => ⟨_, .receive, stepped⟩
  | requested input topic c channel t waiting asked found named checked stepped =>
    exact Or.inr ⟨_, .topicSubscribe topic, stepped⟩
  | withdrawn input topic c channel broker t waiting asked found named removed stepped =>
    exact Or.inr ⟨_, .topicUnsubscribe topic, stepped⟩
  | adding ok text topic task a t stage found stepped =>
    exact Or.inr ⟨_, .advanceAdd topic task ok stage, stepped⟩
  | added ok text topic task a t result stage found stepped =>
    exact Or.inr ⟨_, .advanceAdd topic task ok stage, stepped⟩

theorem leave_moves (waiting : h.stage = .waiting) (other : input.topicRequest = none)
    (stepped : h.leave config json s = some (t, h')) : Moves config json s h input t h' := by
  obtain ⟨t, left, same⟩ := Option.map_eq_some_iff.mp stepped
  cases same
  exact .left input t waiting other left

theorem sent_moves (stepped : h.sent config json s ok = some (t, h')) :
    Moves config json s h (.sent ok) t h' := by
  unfold Handler.sent at stepped
  split at stepped
  · rename_i output sent failed stage
    split at stepped
    · contradiction
    · cases following : (if ok then sent else failed) with
      | loop =>
        simp only [following, proceed, Option.some.injEq] at stepped
        cases stepped
        exact .sent ok output sent failed stage following
      | leave =>
        simp only [following, proceed] at stepped
        obtain ⟨t, left, same⟩ := Option.map_eq_some_iff.mp stepped
        cases same
        exact .sentLast ok output sent failed t stage following left
      | quit =>
        simp only [following, proceed] at stepped
        obtain ⟨t, left, same⟩ := Option.map_eq_some_iff.mp stepped
        cases same
        exact .quit ok output sent failed t stage following left
  · contradiction

theorem topicSubscribe_moves (waiting : h.stage = .waiting)
    (asked : input.topicRequest = some (.subscribe topic))
    (stepped : h.topicSubscribe config json s topic = some (t, h')) :
    Moves config json s h input t h' := by
  obtain ⟨c, found, answered⟩ := Option.bind_eq_some_iff.mp stepped
  split at answered
  · rename_i e unnamed
    cases answered
    exact .refused input _ c e waiting asked found (Or.inl unnamed)
  · rename_i channel named
    split at answered
    · rename_i text refused
      cases answered
      exact .refused input _ c _ waiting asked found (Or.inr ⟨channel, text, named, refused, rfl⟩)
    · rename_i checked
      obtain ⟨t, started, same⟩ := Option.map_eq_some_iff.mp answered
      cases same
      exact .requested input topic c channel t waiting asked found named checked started

theorem topicUnsubscribe_moves (waiting : h.stage = .waiting)
    (asked : input.topicRequest = some (.unsubscribe topic))
    (stepped : h.topicUnsubscribe config json s topic = some (t, h')) :
    Moves config json s h input t h' := by
  obtain ⟨c, found, answered⟩ := Option.bind_eq_some_iff.mp stepped
  split at answered
  · rename_i e unnamed
    cases answered
    exact .refused input _ c e waiting asked found (Or.inl unnamed)
  · rename_i channel named
    split at answered
    · rename_i text refused
      cases answered
      exact .refused input _ c _ waiting asked found (Or.inr ⟨channel, text, named, refused, rfl⟩)
    · rename_i broker removed
      obtain ⟨t, started, same⟩ := Option.map_eq_some_iff.mp answered
      cases same
      exact .withdrawn input topic c channel broker t waiting asked found named removed started

theorem handleClientRequest_moves (waiting : h.stage = .waiting)
    (stepped : h.handleClientRequest config json s message = some (t, h')) :
    Moves config json s h (.message message) t h' := by
  unfold handleClientRequest at stepped
  split at stepped
  · exact topicSubscribe_moves waiting rfl stepped
  · exact topicUnsubscribe_moves waiting rfl stepped
  · cases stepped
    exact .idle _ waiting rfl
  · cases stepped
    exact .idle _ waiting rfl
  · cases stepped
    exact .idle _ waiting rfl
  · exact leave_moves waiting rfl stepped
  · exact leave_moves waiting rfl stepped

theorem added_moves (stepped : h.added config json s ok text = some (t, h')) :
    Moves config json s h (.add ok text) t h' := by
  unfold Handler.added at stepped
  split at stepped
  · rename_i topic task stage
    obtain ⟨a, found, goes⟩ := Option.bind_eq_some_iff.mp stepped
    obtain ⟨t, advanced, same⟩ := Option.map_eq_some_iff.mp goes
    cases ended : a.result ok text with
    | none =>
      simp only [ended] at same
      cases same
      exact .adding ok text topic task a t stage found advanced ended
    | some result =>
      simp only [ended] at same
      cases same
      exact .added ok text topic task a t result stage found advanced ended
  · contradiction

theorem received_moves (waiting : h.stage = .waiting)
    (stepped : h.received config json s message = some (t, h')) :
    Moves config json s h (.frame message) t h' := by
  cases message with
  | text | binary | pong =>
    cases stepped
    exact .idle _ waiting rfl
  | ping payload =>
    cases stepped
    refine .talks _ _ _ _ waiting rfl (by simp) ?_ (Or.inl rfl)
    intro request status
    simp
  | close | closed | error => exact leave_moves waiting rfl stepped

theorem event_moves (waiting : h.stage = .waiting)
    (stepped : h.event config json s = some (t, h')) : Moves config json s h .event t h' := by
  unfold Handler.event at stepped
  split at stepped
  · contradiction
  · obtain ⟨t, received, same⟩ := Option.map_eq_some_iff.mp stepped
    cases same
    refine .talks _ _ _ _ waiting rfl (by simp) ?_ (Or.inr received)
    intro request status
    cases h.frontend <;> cases request <;> simp [Frontend.event, TopicRequest.ack]

theorem ticked_moves (waiting : h.stage = .waiting) (late : Bool) :
    Moves config json s h (.tick late) s (h.ticked late) := by
  unfold ticked
  split
  · exact .talks _ _ _ _ waiting rfl (by simp) (by simp) (Or.inl rfl)
  · exact .talks _ _ _ _ waiting rfl (by simp) (by simp) (Or.inl rfl)
  · exact .talks _ _ _ _ waiting rfl (by simp) (by simp) (Or.inl rfl)
  · exact .idle _ waiting rfl

theorem step_moves (stepped : h.step config json s input = some (t, h')) :
    Moves config json s h input t h' := by
  cases input with
  | call ok =>
    simp only [Handler.step] at stepped
    split at stepped
    · rename_i calling
      obtain ⟨t, advanced, found⟩ := Option.bind_eq_some_iff.mp stepped
      obtain ⟨c, present, same⟩ := Option.map_eq_some_iff.mp found
      cases same
      exact .called ok t c calling advanced present
    · contradiction
  | add ok text => exact added_moves stepped
  | sent ok => exact sent_moves stepped
  | frame message =>
    simp only [Handler.step] at stepped
    split at stepped
    · rename_i ready
      exact received_moves ready.1 stepped
    · contradiction
  | message message =>
    simp only [Handler.step] at stepped
    split at stepped
    · rename_i ready
      exact handleClientRequest_moves ready.1 stepped
    · contradiction
  | event =>
    simp only [Handler.step] at stepped
    split at stepped
    · rename_i waiting
      exact event_moves waiting stepped
    · contradiction
  | eventsClosed =>
    simp only [Handler.step] at stepped
    split at stepped
    · rename_i waiting
      exact leave_moves waiting rfl stepped
    · contradiction
  | tick late =>
    simp only [Handler.step] at stepped
    split at stepped
    · rename_i waiting
      cases stepped
      exact ticked_moves waiting late
    · contradiction

end Handler

/-- The service with all its handlers. -/
structure Server where
  service : Service
  handlers : List Handler

/-- The actions that no handler takes. -/
def Action.background : Action → Bool
  | .publish .. | .deliver _ | .stop _ | .hangUp _ | .endOfStream _ => true
  | _ => false

namespace Server

inductive Action where
  | accept (frontend : Frontend) (sub : Uuid) (tenantId clientId : String) (device : Option Device)
  | turn (sub : Uuid) (input : Input)
  | background (a : Propeller.Action)
  /-- An ended handler drops its subscription. -/
  | drop (sub : Uuid)
  deriving DecidableEq, Repr

def initial : Server := ⟨.initial, []⟩

def handler (s : Server) (sub : Uuid) : Option Handler := s.handlers.find? (·.sub = sub)

def step (config : ClientConfig) (json : AttributesJson) (s : Server) : Action → Option Server
  | .accept frontend sub tenantId clientId device =>
      (s.service.step config json (.connect sub tenantId clientId device)).map fun t =>
        match clientChannels config tenantId clientId device with
        | .error _ => ⟨t, s.handlers⟩
        | .ok _ => ⟨t, s.handlers ++ [⟨sub, frontend, .subscribing, false, 0, [], []⟩]⟩
  | .turn sub input =>
      (s.handler sub).bind fun h => (h.step config json s.service input).map fun (t, h') =>
        ⟨t, updateWhere (·.sub == sub) (fun _ => h') s.handlers⟩
  | .background a =>
      if a.background then (s.service.step config json a).map fun t => ⟨t, s.handlers⟩ else none
  | .drop sub =>
      (s.handler sub).bind fun h =>
        if h.stage = .ended then (s.service.step config json (.drop sub)).map fun t => ⟨t, s.handlers⟩
        else none

/-- The steps of the server. -/
inductive Moves (config : ClientConfig) (json : AttributesJson) (s : Server) : Action → Server → Prop
    where
  | refused (a) : (∀ sub input, a ≠ .turn sub input) → Moves config json s a s
  | accepted (frontend sub tenantId clientId device channels t) :
      s.service.step config json (.connect sub tenantId clientId device) = some t →
      clientChannels config tenantId clientId device = .ok channels →
      Moves config json s (.accept frontend sub tenantId clientId device)
        ⟨t, s.handlers ++ [⟨sub, frontend, .subscribing, false, 0, [], []⟩]⟩
  | turn (h input t h') : s.handler h.sub = some h → h.Moves config json s.service input t h' →
      Moves config json s (.turn h.sub input)
        ⟨t, updateWhere (·.sub == h.sub) (fun _ => h') s.handlers⟩
  | background (a b t) : (∀ sub input, a ≠ .turn sub input) → s.service.step config json b = some t →
      b.background = true ∨ (∃ sub, b = .drop sub) → Moves config json s a ⟨t, s.handlers⟩

theorem handler_mem {s : Server} {h : Handler} (found : s.handler sub = some h) :
    h ∈ s.handlers ∧ h.sub = sub :=
  ⟨List.mem_of_find?_eq_some found, by simpa using List.find?_some found⟩

theorem step_moves {config : ClientConfig} {json : AttributesJson} {s t : Server}
    (stepped : s.step config json a = some t) : Moves config json s a t := by
  cases a with
  | accept frontend sub tenantId clientId device =>
    obtain ⟨u, connected, same⟩ := Option.map_eq_some_iff.mp stepped
    cases checked : clientChannels config tenantId clientId device with
    | error e =>
      have unchanged : u = s.service := by
        simp only [Service.step, checked] at connected
        split at connected
        · contradiction
        · cases connected
          rfl
      simp only [checked, unchanged] at same
      subst same
      exact .refused _ (by simp)
    | ok channels =>
      simp only [checked] at same
      subst same
      exact .accepted frontend sub tenantId clientId device channels u connected checked
  | turn sub input =>
    obtain ⟨h, found, goes⟩ := Option.bind_eq_some_iff.mp stepped
    obtain ⟨⟨u, h'⟩, moved, rfl⟩ := Option.map_eq_some_iff.mp goes
    obtain ⟨-, rfl⟩ := handler_mem found
    exact .turn h input u h' found (Handler.step_moves moved)
  | background b =>
    simp only [Server.step] at stepped
    split at stepped
    · rename_i allowed
      obtain ⟨u, moved, rfl⟩ := Option.map_eq_some_iff.mp stepped
      exact .background _ b u (by simp) moved (Or.inl allowed)
    · contradiction
  | drop sub =>
    obtain ⟨h, found, goes⟩ := Option.bind_eq_some_iff.mp stepped
    split at goes
    · obtain ⟨u, moved, rfl⟩ := Option.map_eq_some_iff.mp goes
      exact .background _ _ u (by simp) moved (Or.inr ⟨sub, rfl⟩)
    · contradiction

end Server
end Propeller
