import PaymentProcessing.Propeller.Brokerage
import PaymentProcessing.Propeller.TopicControls

/-! What the clients are handed. A handler takes one event at a time from the queue of its
subscription and is back for the next one when its send has ended. -/
namespace Propeller
open Relational Transition

def Message.topicEvent {α : Type} (m : Message α) : TopicEvent := ⟨m.channel, m.data⟩

/-- The event that an output hands over. -/
def Output.event? : Output → Option TopicEvent
  | .frame (.event e) => some e
  | .response (.channelEvent topic event) => some ⟨topic, event.data⟩
  | _ => none

def Stage.output? : Stage → Option Output
  | .sending output _ _ => some output
  | _ => none

namespace Handler

/-- The events whose sends have ended. -/
def offered (h : Handler) : List TopicEvent := (h.trace.sends.map Prod.fst).filterMap Output.event?

/-- The events taken from the queue; the last one may still be on its way. -/
def taken (h : Handler) : List TopicEvent :=
  h.offered ++ (h.stage.output?.bind Output.event?).toList

theorem event?_event (frontend : Frontend) (e : TopicEvent) : (frontend.event e).event? = some e := by
  cases frontend <;> rfl

theorem event?_ack (request : TopicRequest) (status : Proto.ResponseStatus) :
    (Output.response (request.ack status)).event? = none := by
  cases request <;> rfl

theorem taken_idle {h : Handler} (idle : h.stage.output? = none) : h.taken = h.offered := by
  rw [taken, idle, Option.bind_none, Option.toList_none, List.append_nil]

theorem taken_enter {h : Handler} {stage : Stage} (silent : stage.output?.bind Output.event? = none) :
    (h.enter stage).taken = h.offered := by
  rw [taken, enter, silent, Option.toList_none, List.append_nil]
  rfl

theorem offered_log (h : Handler) (output : Output) (ok : Bool) :
    (h.log output ok).offered = h.offered ++ output.event?.toList := by
  simp only [offered, log, List.map_append, List.filterMap_append, List.map_cons, List.map_nil]
  cases given : output.event? with
  | none => simp [given]
  | some e => simp [given]

theorem taken_reply (h : Handler) (request : TopicRequest) (redis : Bool)
    (result : Except PropellerError Unit) : (h.reply request redis result).taken = h.offered := by
  simp only [taken, reply, Stage.output?, Option.bind_some, event?_ack, Option.toList_none,
    List.append_nil]
  rfl

theorem taken_called (h : Handler) (phase : Phase)
    (calling : h.stage = .subscribing ∨ h.stage = .unsubscribing) :
    (h.called phase).taken = h.taken := by
  have idle : h.stage.output? = none := by
    rcases calling with stage | stage <;> rw [stage] <;> rfl
  unfold called
  split
  · rw [taken_idle idle]
    cases h.frontend <;> exact List.append_nil _
  · rw [taken_enter rfl, taken_idle idle]
  · rw [taken_enter rfl, taken_idle idle]
  · rfl

end Handler

namespace Broker
variable {α : Type} {b b' b'' : Broker α} {sub : Uuid}

/-- A subscription gets these messages into its queue while those are taken out. -/
structure Flows (sub : Uuid) (got more : List (Message α)) (b b' : Broker α) : Prop where
  enqueued : b'.enqueued sub = b.enqueued sub ++ more
  queues : b.queues sub ++ more = got ++ b'.queues sub

theorem Flows.still (delivered : b'.delivered = b.delivered) (queues : b'.queues sub = b.queues sub) :
    Flows sub [] [] b b' := by
  constructor
  · rw [Broker.enqueued, delivered, List.append_nil, Broker.enqueued]
  · rw [queues, List.append_nil, List.nil_append]

theorem Flows.refl (b : Broker α) : Flows sub [] [] b b := .still rfl rfl

theorem Finishes.flows (h : Finishes b task l b') : Flows sub [] [] b b' := by
  rw [h.state]
  exact .still rfl rfl

theorem Delivers.flows (h : Delivers b task l message rest b') :
    Flows sub [] (if task.sub = sub then [message] else []) b b' :=
  ⟨h.enqueued sub, (h.queues sub).symm⟩

theorem receive_flows (h : b.receive sub = some (message, b')) : Flows sub [message] [] b b' := by
  obtain ⟨rest, queue, rfl⟩ := receive_ok h
  refine ⟨(List.append_nil _).symm, ?_⟩
  simp [queue]

theorem receive_others (h : b.receive other = some (message, b')) (different : sub ≠ other) :
    Flows sub [] [] b b' := by
  obtain ⟨rest, queue, rfl⟩ := receive_ok h
  exact .still rfl (if_neg different)

/-- Everything that went into the queue has been taken, or is still there. -/
def Handed (b : Broker α) (sub : Uuid) (taken : List TopicEvent) : Prop :=
  (b.enqueued sub).map Message.topicEvent = taken ++ (b.queues sub).map Message.topicEvent

theorem Handed.flows {events : List TopicEvent} (handed : b.Handed sub events)
    (flows : Flows sub got more b b') :
    b'.Handed sub (events ++ got.map Message.topicEvent) := by
  unfold Handed at handed ⊢
  rw [flows.enqueued, List.map_append, handed, List.append_assoc, ← List.map_append, flows.queues,
    List.map_append, List.append_assoc]

end Broker

namespace Service
variable {config : ClientConfig} {json : AttributesJson} {s t : Service} {c : Connection} {sub : Uuid}

theorem Advances.flows (h : Advances config json s c ok t) :
    Broker.Flows sub [] [] s.broker t.broker := by
  cases h with
  | left =>
    change Broker.Flows sub [] [] s.broker (s.broker.unsubscribe c.sub)
    unfold Broker.unsubscribe
    split <;> exact .still rfl rfl
  | _ => exact .still rfl rfl

theorem advanceAdd_flows (s : Service) (a : Adding) (ok : Bool) :
    Broker.Flows sub [] [] s.broker (s.advanceAdd a ok).broker := by
  unfold advanceAdd
  split <;> exact .still rfl rfl

/-- Only a task that runs for the subscription puts messages into its queue. -/
def Feeding (s : Service) (sub : Uuid) (more : List (Message Send)) : Prop :=
  more ≠ [] → ∃ l ∈ s.broker.listeners, l.running = true ∧ l.id.sub = sub

theorem step_flows (h : s.step config json a = some t) (other : a ≠ .receive sub) :
    ∃ more, Broker.Flows sub [] more s.broker t.broker ∧ s.Feeding sub more := by
  have still (flows : Broker.Flows sub [] [] s.broker t.broker) :
      ∃ more, Broker.Flows sub [] more s.broker t.broker ∧ s.Feeding sub more :=
    ⟨[], flows, absurd rfl⟩
  have moves := step_moves h
  cases moves with
  | advance other c ok _ found advanced => exact still advanced.flows
  | advanceAdd a ok => exact still (advanceAdd_flows s a ok)
  | topicUnsubscribe other c topic channel broker found phase named removed =>
    obtain ⟨entry, -, -, rfl⟩ := Broker.removeSubscription_ok removed
    exact still (.still rfl rfl)
  | publish send reply =>
    refine still ?_
    dsimp only
    split <;> exact .still rfl rfl
  | turn a broker turns =>
    cases turns with
    | deliver task _ delivered =>
      obtain ⟨l, member, named, running⟩ := Broker.deliver_running delivered
      rcases Broker.deliver_cases delivered with ⟨-, _, finishes⟩ | ⟨_, message, rest, delivers⟩
      · exact still finishes.flows
      · refine ⟨_, delivers.flows, fun some => ⟨l, member, running, ?_⟩⟩
        by_cases own : task.sub = sub
        · exact named ▸ own
        · exact absurd (if_neg own) some
    | stop task _ stopped =>
      obtain ⟨l, finishes, -⟩ := Broker.stop_finishes stopped
      exact still finishes.flows
    | endOfStream task _ ended =>
      obtain ⟨l, finishes⟩ := Broker.endOfStream_finishes ended
      exact still finishes.flows
    | hangUp task => exact still (.still rfl rfl)
    | receive sub' message _ received =>
      refine still (Broker.receive_others received ?_)
      rintro rfl
      exact other rfl
    | drop sub' => exact still (.still rfl rfl)
  | _ => exact still (.still rfl rfl)

theorem step_received (h : s.step config json (.receive sub) = some t) :
    ∃ message, (s.broker.queues sub).head? = some message ∧
      Broker.Flows sub [message] [] s.broker t.broker := by
  obtain ⟨c, found, answered⟩ := Option.bind_eq_some_iff.mp h
  split at answered
  · obtain ⟨⟨message, broker⟩, received, rfl⟩ := Option.map_eq_some_iff.mp answered
    obtain ⟨rest, queue, -⟩ := Broker.receive_ok received
    exact ⟨message, by rw [queue]; rfl, Broker.receive_flows received⟩
  · contradiction

end Service

namespace Handler
variable {config : ClientConfig} {json : AttributesJson} {s t : Service} {h h' k : Handler}
  {next : Next}

/-- In this step a handler takes these messages from the queue of its subscription. -/
structure Takes (h : Handler) (s : Service) (taken : List (Message Send)) (t : Service) (h' : Handler) :
    Prop where
  flows : ∃ more, Broker.Flows h.sub taken more s.broker t.broker ∧ s.Feeding h.sub more
  events : h'.taken = h.taken ++ taken.map Message.topicEvent

theorem Takes.unmoved (same : h'.taken = h.taken) : Takes h s [] s h' :=
  ⟨⟨[], .refl _, absurd rfl⟩, same.trans (List.append_nil _).symm⟩

theorem Takes.none (stepped : s.step config json a = some t) (other : a ≠ .receive h.sub)
    (same : h'.taken = h.taken) : Takes h s [] t h' :=
  ⟨Service.step_flows stepped other, same.trans (List.append_nil _).symm⟩

theorem leave_takes (events : k.offered = h.taken)
    (stepped : k.leave config json s = some (t, h')) : Takes h s [] t h' := by
  obtain ⟨t, left, rest⟩ := Option.map_eq_some_iff.mp stepped
  cases rest
  exact .none left (by simp) ((taken_idle rfl).trans events)

theorem proceed_takes (events : k.offered = h.taken)
    (stepped : k.proceed config json s next = some (t, h')) : Takes h s [] t h' := by
  cases next with
  | loop =>
    cases stepped
    exact .unmoved ((taken_enter rfl).trans events)
  | leave => exact leave_takes events stepped
  | quit =>
    obtain ⟨t, abandoned, rest⟩ := Option.map_eq_some_iff.mp stepped
    cases rest
    exact .none abandoned (by simp) ((taken_enter rfl).trans events)

theorem sent_takes (stepped : h.sent config json s ok = some (t, h')) : Takes h s [] t h' := by
  unfold Handler.sent at stepped
  split at stepped
  · rename_i output sent failed stage
    split at stepped
    · contradiction
    · refine proceed_takes (k := h.log output ok) ?_ stepped
      rw [offered_log, taken, stage]
      rfl
  · contradiction

theorem idle_taken (waiting : h.stage = .waiting) : h.offered = h.taken := by
  rw [taken_idle (by rw [waiting]; rfl)]

theorem received_takes (waiting : h.stage = .waiting)
    (stepped : h.received config json s message = some (t, h')) : Takes h s [] t h' := by
  cases message with
  | text | binary | pong =>
    cases stepped
    exact .unmoved rfl
  | ping payload =>
    cases stepped
    exact .unmoved ((taken_enter rfl).trans (idle_taken waiting))
  | close | closed | error => exact leave_takes (idle_taken waiting) stepped

theorem ticked_takes (waiting : h.stage = .waiting) (late : Bool) : Takes h s [] s (h.ticked late) := by
  unfold ticked
  split
  · exact .unmoved ((taken_enter rfl).trans (idle_taken waiting))
  · exact .unmoved ((taken_enter rfl).trans (idle_taken waiting))
  · exact .unmoved ((taken_enter rfl).trans (idle_taken waiting))
  · exact .unmoved rfl

theorem reply_takes (waiting : h.stage = .waiting) (request : TopicRequest) (redis : Bool)
    (result : Except PropellerError Unit) :
    (h.reply request redis result).taken = h.taken :=
  (taken_reply h request redis result).trans (idle_taken waiting)

theorem topicSubscribe_takes (waiting : h.stage = .waiting)
    (stepped : h.topicSubscribe config json s topic = some (t, h')) :
    Takes h s [] t h' := by
  obtain ⟨c, found, answered⟩ := Option.bind_eq_some_iff.mp stepped
  split at answered
  · cases answered
    exact .unmoved (reply_takes waiting _ _ _)
  · split at answered
    · cases answered
      exact .unmoved (reply_takes waiting _ _ _)
    · obtain ⟨t, started, same⟩ := Option.map_eq_some_iff.mp answered
      cases same
      exact .none started (by simp) ((taken_enter rfl).trans (idle_taken waiting))

theorem topicUnsubscribe_takes (waiting : h.stage = .waiting)
    (stepped : h.topicUnsubscribe config json s topic = some (t, h')) :
    Takes h s [] t h' := by
  obtain ⟨c, found, answered⟩ := Option.bind_eq_some_iff.mp stepped
  split at answered
  · cases answered
    exact .unmoved (reply_takes waiting _ _ _)
  · split at answered
    · cases answered
      exact .unmoved (reply_takes waiting _ _ _)
    · obtain ⟨t, removed, same⟩ := Option.map_eq_some_iff.mp answered
      cases same
      exact .none removed (by simp) (reply_takes waiting _ _ _)

theorem handleClientRequest_takes (waiting : h.stage = .waiting)
    (stepped : h.handleClientRequest config json s message = some (t, h')) : Takes h s [] t h' := by
  unfold handleClientRequest at stepped
  split at stepped
  · exact topicSubscribe_takes waiting stepped
  · exact topicUnsubscribe_takes waiting stepped
  · cases stepped
    exact .unmoved rfl
  · cases stepped
    exact .unmoved rfl
  · cases stepped
    exact .unmoved rfl
  · exact leave_takes (idle_taken waiting) stepped
  · exact leave_takes (idle_taken waiting) stepped

theorem event_takes (waiting : h.stage = .waiting) (stepped : h.event config json s = some (t, h')) :
    ∃ message, Takes h s [message] t h' := by
  unfold Handler.event at stepped
  split at stepped
  · contradiction
  · rename_i message rest queue
    obtain ⟨t, received, same⟩ := Option.map_eq_some_iff.mp stepped
    cases same
    obtain ⟨head, first, flows⟩ := Service.step_received received
    rw [queue, List.head?_cons, Option.some.injEq] at first
    refine ⟨message, ⟨[], first ▸ flows, absurd rfl⟩, ?_⟩
    rw [taken, enter, Stage.output?, Option.bind_some, event?_event]
    exact congrArg (· ++ [message.topicEvent]) (idle_taken waiting)

theorem added_takes (stepped : h.added config json s ok text = some (t, h')) : Takes h s [] t h' := by
  unfold Handler.added at stepped
  split at stepped
  · rename_i topic task stage
    have idle : h.taken = h.offered := taken_idle (by rw [stage]; rfl)
    obtain ⟨a, found, goes⟩ := Option.bind_eq_some_iff.mp stepped
    obtain ⟨t, advanced, same⟩ := Option.map_eq_some_iff.mp goes
    cases ended : a.result ok text with
    | none =>
      simp only [ended] at same
      cases same
      exact .none advanced (by simp) rfl
    | some result =>
      simp only [ended] at same
      cases same
      exact .none advanced (by simp) ((taken_reply h _ _ _).trans idle.symm)
  · contradiction

/-- A turn takes the next event, or none. -/
theorem step_takes (stepped : h.step config json s input = some (t, h')) :
    ∃ taken, Takes h s taken t h' := by
  cases input with
  | call ok =>
    simp only [Handler.step] at stepped
    split at stepped
    · rename_i calling
      obtain ⟨t, advanced, found⟩ := Option.bind_eq_some_iff.mp stepped
      obtain ⟨c, present, same⟩ := Option.map_eq_some_iff.mp found
      cases same
      exact ⟨[], .none advanced (by simp) (taken_called h c.phase calling)⟩
    · contradiction
  | add ok text => exact ⟨[], added_takes stepped⟩
  | sent ok => exact ⟨[], sent_takes stepped⟩
  | frame message =>
    simp only [Handler.step] at stepped
    split at stepped
    · rename_i ready
      exact ⟨[], received_takes ready.1 stepped⟩
    · contradiction
  | message message =>
    simp only [Handler.step] at stepped
    split at stepped
    · rename_i ready
      exact ⟨[], handleClientRequest_takes ready.1 stepped⟩
    · contradiction
  | event =>
    simp only [Handler.step] at stepped
    split at stepped
    · rename_i waiting
      obtain ⟨message, takes⟩ := event_takes waiting stepped
      exact ⟨[message], takes⟩
    · contradiction
  | eventsClosed =>
    simp only [Handler.step] at stepped
    split at stepped
    · rename_i waiting
      exact ⟨[], leave_takes (idle_taken waiting) stepped⟩
    · contradiction
  | tick late =>
    simp only [Handler.step] at stepped
    split at stepped
    · rename_i waiting
      cases stepped
      exact ⟨[], ticked_takes waiting late⟩
    · contradiction

end Handler

namespace Service
variable {config : ClientConfig} {json : AttributesJson} {s t : Service}

/-- A connection is never forgotten. -/
theorem step_absent (h : s.step config json a = some t) (absent : t.connection sub = none) :
    s.connection sub = none := by
  cases found : s.connection sub with
  | none => rfl
  | some c =>
    obtain ⟨c', kept, -⟩ := step_connection h found
    rw [absent] at kept
    contradiction

/-- Nothing was ever queued for an id that has no connection. -/
def Fresh (s : Service) : Prop :=
  ∀ sub, s.connection sub = none → s.broker.enqueued sub = [] ∧ s.broker.queues sub = []

theorem step_fresh (regular : s.Regular) (fresh : s.Fresh) (h : s.step config json a = some t) :
    t.Fresh := by
  intro sub absent
  obtain ⟨unqueued, empty⟩ := fresh sub (step_absent h absent)
  by_cases taken : a = .receive sub
  · subst taken
    obtain ⟨message, first, -⟩ := step_received h
    rw [empty] at first
    contradiction
  · obtain ⟨more, flows, feeding⟩ := step_flows h taken
    have none_fed : more = [] := by
      by_contra some
      obtain ⟨l, member, running, same⟩ := feeding some
      obtain ⟨c, present, named, -⟩ := regular.running l member running
      exact connection_fresh (step_absent h absent) c present (named.trans same)
    refine ⟨by rw [flows.enqueued, unqueued, none_fed]; rfl, ?_⟩
    have kept := flows.queues
    rw [empty, none_fed] at kept
    exact kept.symm

end Service

namespace Server
variable {config : ClientConfig} {json : AttributesJson} {s t : Server}

/-- What went into a queue is what its handler has taken and what still waits there. -/
structure Supplied (s : Server) : Prop where
  regular : s.service.Regular
  fresh : s.service.Fresh
  handed : ∀ k ∈ s.handlers, s.service.broker.Handed k.sub k.taken

theorem initial_supplied : initial.Supplied :=
  ⟨Service.initial_regular, fun _ _ => ⟨rfl, rfl⟩, by simp [initial]⟩

/-- A step of the service that is not a handler's own `recv` leaves the handler its events. -/
theorem Supplied.aside (supplied : s.Supplied) (member : k ∈ s.handlers)
    (stepped : s.service.step config json a = some u) (other : a ≠ .receive k.sub) :
    u.broker.Handed k.sub k.taken := by
  obtain ⟨more, flows, -⟩ := Service.step_flows stepped other
  have kept := (supplied.handed k member).flows flows
  rwa [List.map_nil, List.append_nil] at kept

/-- The queue of a new handler is fresh. -/
theorem Supplied.accepted (supplied : s.Supplied)
    (connected : s.service.step config json (.connect sub tenantId clientId device) = some u)
    (checked : clientChannels config tenantId clientId device = .ok channels)
    (member : k ∈ s.handlers ++ [⟨sub, frontend, .subscribing, false, 0, [], []⟩]) :
    u.broker.Handed k.sub k.taken := by
  rcases List.mem_append.mp member with old | new
  · exact supplied.aside old connected (by simp)
  · obtain ⟨absent, rfl⟩ := Service.step_connect connected checked
    obtain ⟨unqueued, empty⟩ := supplied.fresh sub absent
    rw [List.mem_singleton.mp new]
    change (s.service.broker.enqueued sub).map Message.topicEvent =
      [] ++ (s.service.broker.queues sub).map Message.topicEvent
    rw [unqueued, empty]
    rfl

/-- A handler takes from its own queue only. -/
theorem Supplied.turned (supplied : s.Supplied) (coherent : s.Coherent) (member : k ∈ s.handlers)
    (moved : k.step config json s.service input = some (u, k'))
    (inside : x ∈ updateWhere (Handler.sub · == k.sub) (fun _ => k') s.handlers) :
    u.broker.Handed x.sub x.taken := by
  obtain ⟨y, old, rfl⟩ := mem_updateWhere.mp inside
  split
  · rename_i hit
    have same : y.sub = k.sub := by simpa using hit
    cases coherent.distinct.unique old member same
    obtain ⟨taken, ⟨more, flows, -⟩, events⟩ := Handler.step_takes moved
    rw [events, (Handler.step_moves moved).sub]
    exact (supplied.handed _ member).flows flows
  · rename_i missed
    have different : y.sub ≠ k.sub := by simpa using missed
    rcases (Handler.step_moves moved).service with rfl | ⟨b, calls, stepped⟩
    · exact supplied.handed y old
    · apply supplied.aside old stepped
      intro receives
      cases calls with
      | receive =>
        injection receives with same
        exact different same.symm
      | _ => cases receives

theorem step_supplied (supplied : s.Supplied) (coherent : s.Coherent)
    (h : s.step config json a = some t) : t.Supplied := by
  have advanced {b : Propeller.Action} {u : Service} {handlers : List Handler}
      (stepped : s.service.step config json b = some u)
      (handed : ∀ k ∈ handlers, u.broker.Handed k.sub k.taken) : Supplied ⟨u, handlers⟩ :=
    ⟨Service.step_regular stepped supplied.regular,
      Service.step_fresh supplied.regular supplied.fresh stepped, handed⟩
  cases a with
  | accept frontend sub tenantId clientId device =>
    obtain ⟨u, connected, rfl⟩ := Option.map_eq_some_iff.mp h
    cases checked : clientChannels config tenantId clientId device with
    | error e =>
      exact advanced connected fun k member => supplied.aside member connected (by simp)
    | ok channels =>
      exact advanced connected fun k member => supplied.accepted connected checked member
  | turn sub input =>
    obtain ⟨k, found, goes⟩ := Option.bind_eq_some_iff.mp h
    obtain ⟨⟨u, k'⟩, moved, rfl⟩ := Option.map_eq_some_iff.mp goes
    obtain ⟨member, rfl⟩ := handler_mem found
    have handed (x : Handler)
        (inside : x ∈ updateWhere (·.sub == k.sub) (fun _ => k') s.handlers) :
        u.broker.Handed x.sub x.taken := supplied.turned coherent member moved inside
    rcases (Handler.step_moves moved).service with rfl | ⟨b, -, stepped⟩
    · exact ⟨supplied.regular, supplied.fresh, handed⟩
    · exact advanced stepped handed
  | background b =>
    simp only [Server.step] at h
    split at h
    · rename_i allowed
      obtain ⟨u, stepped, rfl⟩ := Option.map_eq_some_iff.mp h
      refine advanced stepped fun k member => supplied.aside member stepped ?_
      rintro rfl
      cases allowed
    · contradiction
  | drop sub =>
    obtain ⟨k, found, goes⟩ := Option.bind_eq_some_iff.mp h
    split at goes
    · obtain ⟨u, stepped, rfl⟩ := Option.map_eq_some_iff.mp goes
      exact advanced stepped fun k member => supplied.aside member stepped (by simp)
    · contradiction

theorem run_supplied (h : run (step config json) initial schedule = some s) : s.Supplied :=
  (invariant (I := fun s => s.Supplied ∧ s.Coherent)
    (fun before stepped => ⟨step_supplied before.1 before.2 stepped,
      (step_moves stepped).coherent before.2⟩)
    ⟨initial_supplied, initial_coherent⟩ h).1

/-- In every run, whichever of the two front ends a client uses: the events that went into the
queue of its subscription are, one by one and in their order, those that its handler has taken for
it and then those that still wait in the queue. -/
theorem run_handed_over (config : ClientConfig) (json : AttributesJson) (schedule : List Action)
    (s : Server) (h : run (step config json) initial schedule = some s) :
    ∀ k ∈ s.handlers, (s.service.broker.enqueued k.sub).map Message.topicEvent =
      k.taken ++ (s.service.broker.queues k.sub).map Message.topicEvent :=
  (run_supplied h).handed

theorem greeted_handed_over : ∃ s, run (step AppConfig.shipped.client plainJson) initial greeted =
    some s ∧ ∀ k ∈ s.handlers, (s.service.broker.enqueued k.sub).map Message.topicEvent =
      k.taken ++ (s.service.broker.queues k.sub).map Message.topicEvent := by
  obtain ⟨s, reached⟩ : ∃ s, run (step AppConfig.shipped.client plainJson) initial greeted = some s :=
    Option.isSome_iff_exists.mp (by decide +kernel)
  exact ⟨s, reached, run_handed_over _ _ _ s reached⟩

instance (b : Broker Send) (channel : String) : Decidable (b.Alone channel) :=
  inferInstanceAs (Decidable (∀ l ∈ _, ∀ l' ∈ _, _))

instance (s : Server) (a : Action) : Decidable (s.Apart config a) := by
  unfold Apart
  split
  · rename_i send reply
    cases named : send.channel config with
    | error e => exact .isTrue fun _ same => by cases same
    | ok channel =>
      refine decidable_of_iff (s.service.broker.Alone channel) ⟨?_, fun all => all channel rfl⟩
      rintro alone _ ⟨⟩
      exact alone
  · exact .isTrue trivial

theorem topicEvent_erase {α : Type} (messages : List (Message α)) :
    (messages.map Message.erase).map Message.topicEvent = messages.map Message.topicEvent := by
  rw [List.map_map]
  rfl

theorem enqueued_erase {α : Type} (b : Broker α) (sub : Uuid) :
    b.erase.enqueued sub = (b.enqueued sub).map Message.erase := by
  simp only [Broker.enqueued, Broker.erase, List.filter_map, List.map_map]
  rfl

theorem topicEvent_onChannel {α : Type} (channel : String) (messages : List (Message α)) :
    (onChannel channel messages).map Message.topicEvent =
      (messages.map Message.topicEvent).filter (·.topic = channel) := by
  rw [onChannel, List.filter_map]
  rfl

/-- As long as no message is published into two tasks of one subscription, each client is handed
the events of a channel in the order in which Redis was told to publish them, and none of them more
often than it was published. -/
theorem run_clients_inOrder (config : ClientConfig) (json : AttributesJson) (schedule : List Action)
    (s : Server) (h : run (step config json) initial schedule = some s)
    (meets : Meets (step config json) (Apart config) initial schedule) :
    ∀ k ∈ s.handlers, ∀ channel, (k.taken.filter (·.topic = channel)).Sublist
      (((sent config schedule).map Message.topicEvent).filter (·.topic = channel)) := by
  intro k member channel
  obtain ⟨calls, p, reached, apart, refines, -⟩ := run_apart h meets
  have fed : p.broker.Fed p.published :=
    invariant_of_meets (I := fun s => s.broker.Fed s.published) PubSub.step_fed PubSub.initial_fed
      apart reached
  have same : (s.service.broker.enqueued k.sub).map Message.topicEvent =
      (p.broker.enqueued k.sub).map Message.topicEvent := by
    rw [← topicEvent_erase, ← enqueued_erase, ← refines.broker, enqueued_erase, topicEvent_erase]
  have handed := (run_supplied h).handed k member
  have whole : (k.taken.filter (·.topic = channel)).Sublist
      ((onChannel channel (p.broker.enqueued k.sub)).map Message.topicEvent) := by
    rw [topicEvent_onChannel, ← same, handed]
    exact (List.sublist_append_left ..).filter _
  refine whole.trans ?_
  have queued := (fed.queued k.sub channel).map Message.topicEvent
  rwa [topicEvent_onChannel channel p.published, ← topicEvent_erase p.published,
    refines.published] at queued

def alice : String := clientChannel "acme" "alice"

/-- A second event is on its way to the browser. -/
def twice : List Action :=
  greeted ++ [.background (.publish (.toClient ⟨"acme", "alice", "", [2]⟩) .lost),
    .background (.deliver ⟨0, none, 0⟩), .turn 0 .event]

theorem twice_inOrder : ∃ s k, run (step AppConfig.shipped.client plainJson) initial twice = some s ∧
    k ∈ s.handlers ∧ k.taken = [⟨alice, [1]⟩, ⟨alice, [2]⟩] ∧
    ∀ channel, (k.taken.filter (·.topic = channel)).Sublist
      (((sent AppConfig.shipped.client twice).map Message.topicEvent).filter (·.topic = channel)) := by
  have events : (run (step AppConfig.shipped.client plainJson) initial twice).map
      (fun s => s.handlers.map Handler.taken) = some [[⟨alice, [1]⟩, ⟨alice, [2]⟩]] := by
    decide +kernel
  obtain ⟨s, reached, taken⟩ := Option.map_eq_some_iff.mp events
  obtain ⟨k, only, told⟩ := List.map_eq_singleton_iff.mp taken
  have member : k ∈ s.handlers := by simp [only]
  exact ⟨s, k, reached, member, told, run_clients_inOrder _ _ _ s reached (by decide +kernel) k member⟩

end Server
end Propeller
