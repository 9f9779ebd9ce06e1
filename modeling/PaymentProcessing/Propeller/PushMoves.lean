import PaymentProcessing.Propeller.Push

/-! One inversion of the step of the push service: what the end of an awaited call, a
request and a step of a broker task can each do. -/
namespace Propeller
open Relational

abbrev Action.turn : Broker.Turn → Action
  | .deliver task => .deliver task
  | .stop task => .stop task
  | .hangUp task => .hangUp task
  | .endOfStream task => .endOfStream task
  | .receive sub => .receive sub
  | .drop sub => .drop sub

namespace Service
variable {config : ClientConfig} {json : AttributesJson} {s t : Service}

/-- The ends of an awaited call of `subscribe_client` or `unsubscribe_client`. -/
inductive Advances (config : ClientConfig) (json : AttributesJson) (s : Service) (c : Connection)
    (ok : Bool) : Service → Prop where
  | connected (number todo) : c.phase = .opening number false todo →
      Advances config json s c ok ((s.withBroker (s.broker.connect ⟨c.sub, none, number⟩)).enter c.sub
        (.opening number true todo))
  | listening (number channel todo) : c.phase = .opening number true (channel :: todo) →
      Advances config json s c ok
        ((s.withBroker (s.broker.listen ⟨c.sub, none, number⟩ channel)).enter c.sub
          (.opening number true todo))
  | unconnected (number todo) : c.phase = .opening number false todo →
      Advances config json s c ok (s.enter c.sub .failed)
  | unsubscribed (number channel todo) : c.phase = .opening number true (channel :: todo) →
      Advances config json s c ok
        ((s.withBroker (s.broker.close ⟨c.sub, none, number⟩)).enter c.sub .failed)
  | registering (number dev) : c.phase = .opening number true [] → c.registered config = some dev →
      Advances config json s c ok
        ((s.withBroker (s.broker.start ⟨c.sub, none, number⟩)).enter c.sub .storing)
  | plain (number) : c.phase = .opening number true [] → c.registered config = none →
      Advances config json s c ok
        { (s.withBroker (s.broker.start ⟨c.sub, none, number⟩)).enter c.sub .subscribed with
          gauge := s.gauge + 1 }
  | stored : c.phase = .storing →
      Advances config json s c ok
        { s.enter c.sub .subscribed with devices := s.stored config json c ok, gauge := s.gauge + 1 }
  | deleted : c.phase = .deleting →
      Advances config json s c ok { s.enter c.sub .leaving with devices := s.deleted config c ok }
  | left : c.phase = .leaving →
      Advances config json s c ok
        { (s.withBroker (s.broker.unsubscribe c.sub)).enter c.sub .closed with gauge := s.gauge - 1 }

theorem advance_advances (h : s.advance config json c ok = some t) :
    Advances config json s c ok t := by
  unfold advance at h
  split at h
  · rename_i number todo phase
    cases h
    cases ok with
    | true => exact .connected number todo phase
    | false => exact .unconnected number todo phase
  · rename_i number channel todo phase
    cases h
    cases ok with
    | true => exact .listening number channel todo phase
    | false => exact .unsubscribed number channel todo phase
  · rename_i number phase
    cases h
    cases device : c.registered config with
    | none => exact .plain number phase device
    | some dev => exact .registering number dev phase device
  · rename_i phase
    cases h
    exact .stored phase
  · rename_i phase
    cases h
    exact .deleted phase
  · rename_i phase
    split at h
    · contradiction
    · cases h
      exact .left phase
  all_goals contradiction

/-- The effects of the actions of the service. -/
inductive Moves (config : ClientConfig) (json : AttributesJson) (s : Service) : Action → Service → Prop where
  | refused (a) : Moves config json s a s
  | connect (sub tenantId clientId device channels) : s.connection sub = none →
      clientChannels config tenantId clientId device = .ok channels →
      Moves config json s (.connect sub tenantId clientId device) { s with
        broker := s.broker.register sub s.next
        connections := s.connections ++ [⟨sub, tenantId, clientId, device, .opening s.next false channels⟩]
        next := s.next + 1 }
  | advance (sub c ok t) : s.connection sub = some c → Advances config json s c ok t →
      Moves config json s (.advance sub ok) t
  | disconnect (sub c) : s.connection sub = some c → c.phase = .subscribed →
      Moves config json s (.disconnect sub)
        (s.enter sub (if (c.registered config).isSome then .deleting else .leaving))
  | abandon (sub c) : s.connection sub = some c → c.phase = .subscribed →
      Moves config json s (.abandon sub) (s.enter sub .abandoned)
  | topicSubscribe (sub c topic channel) : s.connection sub = some c → c.phase = .subscribed →
      scopedTopic c.tenantId topic = .ok channel → s.broker.checkAdd channel sub = .ok () →
      Moves config json s (.topicSubscribe sub topic) { s with
        adding := ⟨⟨sub, some channel, s.next⟩, channel, .connecting⟩ :: s.adding
        next := s.next + 1 }
  | advanceAdd (a ok) : a ∈ s.adding → Moves config json s (.advanceAdd a.task ok) (s.advanceAdd a ok)
  | topicUnsubscribe (sub c topic channel broker) : s.connection sub = some c → c.phase = .subscribed →
      scopedTopic c.tenantId topic = .ok channel → s.broker.removeSubscription channel sub = .ok broker →
      Moves config json s (.topicUnsubscribe sub topic) (s.withBroker broker)
  | publish (send reply channel) : send.channel config = .ok channel →
      Moves config json s (.publish send reply) { s with
        broker := if reply = .refused then s.broker else s.broker.publish ⟨channel, send.event, send⟩
        messagesPublished := if reply = .ok then s.messagesPublished + 1 else s.messagesPublished }
  | turn (a broker) : s.broker.Turns .turn a broker → Moves config json s a (s.withBroker broker)

theorem connection_mem (h : s.connection sub = some c) : c ∈ s.connections ∧ c.sub = sub :=
  ⟨List.mem_of_find?_eq_some h, by simpa using List.find?_some h⟩

theorem connection_fresh (absent : s.connection sub = none) : ∀ c ∈ s.connections, c.sub ≠ sub := by
  intro c member same
  exact absurd (List.find?_eq_none.mp absent c member) (by simp [same])

theorem step_moves (h : step config json s a = some t) : Moves config json s a t := by
  cases a with
  | connect sub tenantId clientId device =>
    simp only [step] at h
    split at h
    · contradiction
    · rename_i absent
      have absent : s.connection sub = none := by simpa using absent
      split at h
      · cases h
        exact .refused _
      · rename_i channels checked
        cases h
        exact .connect sub tenantId clientId device channels absent checked
  | advance sub ok =>
    obtain ⟨c, found, advanced⟩ := Option.bind_eq_some_iff.mp h
    exact .advance sub c ok t found (advance_advances advanced)
  | disconnect sub =>
    obtain ⟨c, found, entered⟩ := Option.bind_eq_some_iff.mp h
    split at entered
    · rename_i phase
      cases entered
      exact .disconnect sub c found phase
    · contradiction
  | abandon sub =>
    obtain ⟨c, found, entered⟩ := Option.bind_eq_some_iff.mp h
    split at entered
    · rename_i phase
      cases entered
      exact .abandon sub c found phase
    · contradiction
  | topicSubscribe sub topic =>
    obtain ⟨c, found, answered⟩ := Option.bind_eq_some_iff.mp h
    split at answered
    · rename_i phase
      split at answered
      · cases answered
        exact .refused _
      · rename_i channel named
        split at answered
        · cases answered
          exact .refused _
        · rename_i checked
          cases answered
          exact .topicSubscribe sub c topic channel found phase named checked
    · contradiction
  | advanceAdd task ok =>
    obtain ⟨a, found, rfl⟩ := Option.map_eq_some_iff.mp h
    have same : a.task = task := by simpa using List.find?_some found
    exact same ▸ .advanceAdd a ok (List.mem_of_find?_eq_some found)
  | topicUnsubscribe sub topic =>
    obtain ⟨c, found, answered⟩ := Option.bind_eq_some_iff.mp h
    split at answered
    · rename_i phase
      split at answered
      · cases answered
        exact .refused _
      · rename_i channel named
        split at answered
        · cases answered
          exact .refused _
        · rename_i broker removed
          cases answered
          exact .topicUnsubscribe sub c topic channel broker found phase named removed
    · contradiction
  | publish send reply =>
    simp only [step] at h
    split at h
    · cases h
      exact .refused _
    · rename_i channel checked
      cases h
      exact .publish send reply channel checked
  | deliver task =>
    obtain ⟨broker, delivered, rfl⟩ := Option.map_eq_some_iff.mp h
    exact .turn _ broker (.deliver task broker delivered)
  | stop task =>
    obtain ⟨broker, stopped, rfl⟩ := Option.map_eq_some_iff.mp h
    exact .turn _ broker (.stop task broker stopped)
  | hangUp task =>
    cases h
    exact .turn _ _ (.hangUp task)
  | endOfStream task =>
    obtain ⟨broker, ended, rfl⟩ := Option.map_eq_some_iff.mp h
    exact .turn _ broker (.endOfStream task broker ended)
  | receive sub =>
    obtain ⟨c, found, answered⟩ := Option.bind_eq_some_iff.mp h
    split at answered
    · obtain ⟨⟨message, broker⟩, received, rfl⟩ := Option.map_eq_some_iff.mp answered
      exact .turn _ broker (.receive sub message broker received)
    · contradiction
  | drop sub =>
    obtain ⟨c, found, dropped⟩ := Option.bind_eq_some_iff.mp h
    split at dropped
    · cases dropped
      exact .turn _ _ (.drop sub)
    · contradiction

theorem advanceAdd_registry (s : Service) (a : Adding) (ok : Bool) :
    (s.advanceAdd a ok).devices = s.devices ∧ (s.advanceAdd a ok).connections = s.connections := by
  unfold advanceAdd
  split <;> exact ⟨rfl, rfl⟩

theorem Advances.entered (h : Advances config json s c ok t) :
    ∃ phase, t.connections = (s.enter c.sub phase).connections := by
  cases h <;> exact ⟨_, rfl⟩

/-- Connections change their phase only; a new one has passed the checks of its client. -/
theorem Moves.connections (h : Moves config json s a t) :
    t.connections = s.connections ∨
    (∃ sub phase, t.connections = (s.enter sub phase).connections) ∨
    ∃ c channels, a = .connect c.sub c.tenantId c.clientId c.device ∧
      clientChannels config c.tenantId c.clientId c.device = .ok channels ∧
      t.connections = s.connections ++ [c] := by
  cases h with
  | connect sub tenantId clientId device channels absent checked =>
    exact Or.inr (Or.inr ⟨_, channels, rfl, checked, rfl⟩)
  | advance sub c ok _ found advanced =>
    obtain ⟨phase, same⟩ := advanced.entered
    exact Or.inr (Or.inl ⟨c.sub, phase, same⟩)
  | disconnect sub => exact Or.inr (Or.inl ⟨sub, _, rfl⟩)
  | abandon sub => exact Or.inr (Or.inl ⟨sub, _, rfl⟩)
  | advanceAdd a ok => exact Or.inl (advanceAdd_registry s a ok).2
  | _ => exact Or.inl rfl

end Service
end Propeller
