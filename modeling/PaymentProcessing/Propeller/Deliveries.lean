import PaymentProcessing.Propeller.PushMoves

/-! Which published events reach which connections. Over all runs, an event is delivered
through a task only on a channel that the connection subscribed to, and on the channel
that its publish names; conversely every such coincidence is delivered in some run. -/
namespace Propeller
open Relational

/-- The channels that a connection may hear through its base task or through a topic. -/
def Connection.Hears (config : ClientConfig) (c : Connection) (topic : Option String) (channel : String) :
    Prop :=
  match topic with
  | none => ∃ channels, clientChannels config c.tenantId c.clientId c.device = .ok channels ∧
      channel ∈ channels
  | some _ => ∃ name, scopedTopic c.tenantId name = .ok channel

/-- The requests of a run are limited to these publishes and these connections. -/
def Admits (P : Send → Prop) (Q : String → String → Option Device → Prop) : Action → Prop
  | .publish send _ => P send
  | .connect _ tenantId clientId device => Q tenantId clientId device
  | _ => True

namespace Service
variable {config : ClientConfig} {json : AttributesJson} {s t : Service} {P : Send → Prop}
  {Q : String → String → Option Device → Prop}

def Hears (config : ClientConfig) (s : Service) (task : TaskId) (channel : String) : Prop :=
  ∃ c ∈ s.connections, c.sub = task.sub ∧ c.Hears config task.topic channel

/-- The message was published on the channel of its publish. -/
def Sent (config : ClientConfig) (P : Send → Prop) (m : Message Send) : Prop :=
  m.origin.channel config = .ok m.channel ∧ P m.origin

structure Sound (config : ClientConfig) (P : Send → Prop) (Q : String → String → Option Device → Prop)
    (s : Service) : Prop where
  broker : s.broker.Sound (s.Hears config) (Sent config P)
  admitted : ∀ c ∈ s.connections, Q c.tenantId c.clientId c.device
  distinct : Distinct Connection.sub s.connections
  todo : ∀ c ∈ s.connections, ∀ number connected todo, c.phase = .opening number connected todo →
    ∀ channel ∈ todo, c.Hears config none channel
  adding : ∀ a ∈ s.adding, s.Hears config a.task a.channel

theorem initial_sound : initial.Sound config P Q := by
  refine ⟨Broker.empty_sound, ?_, List.nodup_nil, ?_, ?_⟩ <;> simp [initial]

/-- A connection keeps its identity through its phases. -/
theorem mem_enter (s : Service) (sub : Uuid) (phase : Phase) (c : Connection) :
    c ∈ (s.enter sub phase).connections ↔ ∃ old ∈ s.connections,
      c = if old.sub == sub then { old with phase := phase } else old :=
  mem_updateWhere

theorem mem_entered (distinct : Distinct Connection.sub s.connections)
    (found : s.connection sub = some c) :
    x ∈ (s.enter sub phase).connections ↔
      x = { c with phase := phase } ∨ x ∈ s.connections ∧ x.sub ≠ sub := by
  obtain ⟨member, same⟩ := connection_mem found
  rw [mem_enter]
  constructor
  · rintro ⟨old, present, rfl⟩
    split <;> rename_i hit
    · rw [distinct.unique present member ((by simpa using hit : old.sub = sub).trans same.symm)]
      exact Or.inl rfl
    · exact Or.inr ⟨present, by simpa using hit⟩
  · rintro (rfl | ⟨present, other⟩)
    · exact ⟨c, member, by simp [same]⟩
    · exact ⟨x, present, by simp [other]⟩

theorem hears_enter (h : s.Hears config task channel) :
    (s.enter sub phase).Hears config task channel := by
  obtain ⟨c, member, same, heard⟩ := h
  by_cases hit : c.sub = sub
  · exact ⟨{ c with phase := phase }, mem_updateWhere_of_hit member (by simpa using hit), same,
      heard⟩
  · exact ⟨c, mem_updateWhere_of_miss member (by simpa using hit), same, heard⟩

theorem Sound.withBroker (h : s.Sound config P Q) {broker : Broker Send}
    (sound : broker.Sound (s.Hears config) (Sent config P)) :
    (s.withBroker broker).Sound config P Q :=
  ⟨sound, h.admitted, h.distinct, h.todo, h.adding⟩

/-- Entering a phase keeps the wiring if its channels, when it opens, are the client's. -/
theorem Sound.enter (h : s.Sound config P Q)
    (todo : ∀ c ∈ s.connections, c.sub = sub → ∀ number connected todo,
      phase = .opening number connected todo → ∀ channel ∈ todo, c.Hears config none channel) :
    (s.enter sub phase).Sound config P Q := by
  refine ⟨h.broker.mono fun _ _ => hears_enter, ?_, h.distinct.updateWhere fun _ => rfl, ?_,
    fun a member => hears_enter (h.adding a member)⟩
  · intro c member
    obtain ⟨old, present, rfl⟩ := (mem_enter s sub phase c).mp member
    have kept := h.admitted old present
    split
    · exact kept
    · exact kept
  · intro c member number connected channels opening
    obtain ⟨old, present, rfl⟩ := (mem_enter s sub phase c).mp member
    split at opening <;> rename_i hit
    · rw [if_pos hit]
      exact todo old present (by simpa using hit) number connected channels opening
    · rw [if_neg hit]
      exact h.todo old present number connected channels opening

/-- The device registry and the metrics play no part. -/
theorem Sound.congr (h : s.Sound config P Q) (broker : t.broker = s.broker)
    (connections : t.connections = s.connections) (adding : t.adding = s.adding) :
    t.Sound config P Q := by
  have hears : t.Hears config = s.Hears config := by
    funext task channel
    rw [Hears, Hears, connections]
  refine ⟨?_, connections ▸ h.admitted, connections ▸ h.distinct, connections ▸ h.todo, ?_⟩
  · rw [broker, hears]
    exact h.broker
  · rw [adding, hears]
    exact h.adding

theorem Advances.sound (h : Advances config json s c ok t) (member : c ∈ s.connections)
    (before : s.Sound config P Q) : t.Sound config P Q := by
  have remaining (number connected todo rest) (phase : c.phase = .opening number connected todo)
      (fewer : rest ⊆ todo) : ∀ d ∈ s.connections, d.sub = c.sub → ∀ n b channels,
        Phase.opening number true rest = .opening n b channels →
        ∀ channel ∈ channels, d.Hears config none channel := by
    rintro d inside same _ _ _ ⟨⟩ channel listed
    rw [before.distinct.unique inside member same]
    exact before.todo c member _ _ _ phase channel (fewer listed)
  have settled (phase : Phase) (other : ∀ n b channels, phase ≠ .opening n b channels) :
      ∀ d ∈ s.connections, d.sub = c.sub → ∀ n b channels, phase = .opening n b channels →
        ∀ channel ∈ channels, d.Hears config none channel :=
    fun _ _ _ n b channels opening => absurd opening (other n b channels)
  cases h with
  | connected number todo phase =>
    exact (before.withBroker before.broker.connect).enter
      (remaining _ _ _ _ phase (List.Subset.refl todo))
  | listening number channel todo phase =>
    have heard := before.todo c member _ _ _ phase channel List.mem_cons_self
    exact (before.withBroker (before.broker.listen ⟨c, member, rfl, heard⟩)).enter
      (remaining _ _ _ _ phase (List.subset_cons_self channel todo))
  | unconnected number todo phase => exact before.enter (settled .failed (by simp))
  | unsubscribed number channel todo phase =>
    exact (before.withBroker before.broker.close).enter (settled .failed (by simp))
  | registering number dev phase device =>
    exact (before.withBroker before.broker.start).enter (settled .storing (by simp))
  | plain number phase device =>
    exact ((before.withBroker before.broker.start).enter
      (settled .subscribed (by simp))).congr rfl rfl rfl
  | stored phase => exact (before.enter (settled .subscribed (by simp))).congr rfl rfl rfl
  | deleted phase => exact (before.enter (settled .leaving (by simp))).congr rfl rfl rfl
  | left phase =>
    exact ((before.withBroker before.broker.unsubscribe).enter
      (settled .closed (by simp))).congr rfl rfl rfl

theorem advanceAdd_sound (before : s.Sound config P Q) (member : a ∈ s.adding) :
    (s.advanceAdd a ok).Sound config P Q := by
  have others : ∀ x ∈ s.adding.filter (·.task ≠ a.task), s.Hears config x.task x.channel :=
    fun x inside => before.adding x (List.mem_of_mem_filter inside)
  have heard := before.adding a member
  have going (phase : AddPhase) :
      ∀ x ∈ { a with phase := phase } :: s.adding.filter (·.task ≠ a.task),
      s.Hears config x.task x.channel := by
    intro x inside
    rcases List.mem_cons.mp inside with rfl | other
    · exact heard
    · exact others x other
  unfold advanceAdd
  split
  · exact ⟨before.broker.connect, before.admitted, before.distinct, before.todo, going .subscribing⟩
  · exact ⟨before.broker, before.admitted, before.distinct, before.todo, others⟩
  · exact ⟨before.broker.listen heard, before.admitted, before.distinct, before.todo,
      going .inserting⟩
  · exact ⟨before.broker.close, before.admitted, before.distinct, before.todo, others⟩
  · exact ⟨before.broker.finishAdd, before.admitted, before.distinct, before.todo, others⟩

theorem Moves.sound (h : Moves config json s a t) (before : s.Sound config P Q)
    (admits : Admits P Q a) :
    t.Sound config P Q := by
  have settled (sub : Uuid) (phase : Phase)
    (other : ∀ n b channels, phase ≠ .opening n b channels) :
    (s.enter sub phase).Sound config P Q :=
    before.enter fun _ _ _ n b channels opening => absurd opening (other n b channels)
  cases h with
  | refused => exact before
  | connect sub tenantId clientId device channels absent checked =>
    have more {task channel} (heard : s.Hears config task channel) : ∃ c ∈ s.connections ++
        [⟨sub, tenantId, clientId, device, .opening s.next false channels⟩],
        c.sub = task.sub ∧ c.Hears config task.topic channel := by
      obtain ⟨c, member, same⟩ := heard
      exact ⟨c, List.mem_append_left _ member, same⟩
    refine ⟨?_, ?_, ?_, ?_, fun a member => more (before.adding a member)⟩
    · exact (before.broker.mono fun _ _ => more).congr (List.Subset.refl _) rfl
    · intro c member
      cases List.mem_append.mp member with
      | inl old => exact before.admitted c old
      | inr new =>
        rw [List.mem_singleton.mp new]
        exact admits
    · exact before.distinct.append (connection_fresh absent)
    · intro c member number connected todo opening channel listed
      cases List.mem_append.mp member with
      | inl old => exact before.todo c old number connected todo opening channel listed
      | inr new =>
        rw [List.mem_singleton.mp new] at opening ⊢
        cases opening
        exact ⟨channels, checked, listed⟩
  | advance sub c ok t found advanced => exact advanced.sound (connection_mem found).1 before
  | disconnect sub c found phase =>
    apply settled sub _
    split <;> simp
  | abandon sub c found phase => exact settled sub _ (by simp)
  | topicSubscribe sub c topic channel found phase named checked =>
    obtain ⟨member, same⟩ := connection_mem found
    refine ⟨before.broker, before.admitted, before.distinct, before.todo, ?_⟩
    intro a inside
    rcases List.mem_cons.mp inside with rfl | old
    · exact ⟨c, member, same, topic, named⟩
    · exact before.adding a old
  | advanceAdd a ok member => exact advanceAdd_sound before member
  | topicUnsubscribe sub c topic channel broker found phase named removed =>
    exact before.withBroker (before.broker.removeSubscription removed)
  | publish send reply channel checked =>
    have published : (if reply = .refused then s.broker
        else s.broker.publish ⟨channel, send.event, send⟩).Sound (s.Hears config)
          (Sent config P) := by
      split
      · exact before.broker
      · exact before.broker.publish ⟨checked, admits⟩
    exact ⟨published, before.admitted, before.distinct, before.todo, before.adding⟩
  | turn a broker turns => exact before.withBroker (turns.sound before.broker)

/-- An event is delivered to a connection only on a channel that it hears. -/
theorem run_delivered (h : Transition.run (step config json) initial schedule = some s)
    (admits : ∀ a ∈ schedule, Admits P Q a) (delivered : d ∈ s.broker.delivered)
    (present : c ∈ s.connections) (receiver : c.sub = d.task.sub) :
    d.message.origin.channel config = .ok d.message.channel ∧ P d.message.origin ∧
      Q c.tenantId c.clientId c.device ∧ c.Hears config d.task.topic d.message.channel := by
  have meets : Transition.Meets (step config json) (fun _ a => Admits P Q a) initial schedule :=
    Transition.Meets.of_forall admits initial
  have sound : s.Sound config P Q := by
    refine Transition.invariant_of_meets (I := Sound config P Q) ?_ initial_sound meets h
    intro _ _ _ before admits stepped
    exact (step_moves stepped).sound before admits
  obtain ⟨⟨other, inside, same, heard⟩, published, allowed⟩ := sound.broker.delivered d delivered
  have equal := sound.distinct.unique inside present (same.trans receiver.symm)
  exact ⟨published, allowed, sound.admitted c present, equal ▸ heard⟩

/-- One connection, alone with its base task. -/
def lone (c : Connection) (channels : List String) (running : Bool) : Service where
  broker := {
    subscriptions := [⟨c.sub, 0, []⟩]
    listeners := [⟨⟨c.sub, none, 0⟩, channels, [], running, false, true⟩]
    queues := fun _ => []
    dropped := []
    activeTopicListeners := 0
    delivered := [] }
  devices := []
  connections := [c]
  adding := []
  next := 1
  gauge := 0
  messagesPublished := 0

theorem lone_listen (config : ClientConfig) (json : AttributesJson) (c : Connection)
    (first : c.sub = 0) (channels todo : List String) :
    Transition.run (step config json) (lone { c with phase := .opening 0 true todo } channels false)
        (List.replicate todo.length (.advance 0 true)) =
      some (lone { c with phase := .opening 0 true [] } (channels ++ todo) false) := by
  obtain ⟨_, tenantId, clientId, device, phase⟩ := c
  cases first
  induction todo generalizing channels with
  | nil => simp
  | cons channel todo ih =>
    have rest := ih (channels ++ [channel])
    rw [List.append_assoc, List.singleton_append] at rest
    exact Transition.run_cons_iff.mpr ⟨_, rfl, rest⟩

theorem lone_open (json : AttributesJson) (tenantId clientId : String) (device : Option Device)
    (checked : clientChannels config tenantId clientId device = .ok channels) :
    Transition.run (step config json) initial
        [.connect 0 tenantId clientId device, .advance 0 true] =
      some (lone ⟨0, tenantId, clientId, device, .opening 0 true channels⟩ [] false) := by
  have connected : step config json initial (.connect 0 tenantId clientId device) =
      some { initial with
      broker := initial.broker.register 0 0
      connections := [⟨0, tenantId, clientId, device, .opening 0 false channels⟩]
      next := 1 } := by
    simp [step, connection, initial, checked]
  exact Transition.run_cons_iff.mpr ⟨_, connected, rfl⟩

theorem lone_start (config : ClientConfig) (json : AttributesJson) (tenantId clientId : String)
    (device : Option Device) (channels : List String) :
    ∃ t phase, step config json
        (lone ⟨0, tenantId, clientId, device, .opening 0 true []⟩ channels false)
        (.advance 0 true) = some t ∧
      t.broker = (lone ⟨0, tenantId, clientId, device, phase⟩ channels true).broker ∧
      t.connections = [⟨0, tenantId, clientId, device, phase⟩] := by
  let c : Connection := ⟨0, tenantId, clientId, device, .opening 0 true []⟩
  obtain ⟨t, advanced⟩ : ∃ t, (lone c channels false).advance config json c true = some t := ⟨_, rfl⟩
  cases advance_advances advanced with
  | registering number dev opening =>
    cases opening
    exact ⟨_, .storing, advanced, rfl, rfl⟩
  | plain number opening =>
    cases opening
    exact ⟨_, .subscribed, advanced, rfl, rfl⟩
  | connected _ _ other | listening _ _ _ other | unconnected _ _ other | unsubscribed _ _ _ other
  | stored other | deleted other | left other => cases other

theorem lone_deliver (c : Connection) (message : Message Send)
    (listed : message.channel ∈ channels) :
    ∃ b, ((lone c channels true).broker.publish message).deliver ⟨c.sub, none, 0⟩ = some b ∧
      ⟨⟨c.sub, none, 0⟩, message⟩ ∈ b.delivered := by
  have offered : ((lone c channels true).broker.publish message).lookup ⟨c.sub, none, 0⟩ =
      some ⟨⟨c.sub, none, 0⟩, channels, [message], true, false, true⟩ := by
    simp [lone, Broker.publish, Broker.offer, Broker.lookup, listed]
  simp only [Broker.deliver, offered]
  exact ⟨_, rfl, List.mem_append_right _ List.mem_cons_self⟩

/-- A publish on a channel that a client subscribes to is delivered to it in some run. -/
theorem exists_delivery (json : AttributesJson)
    (subscribes : clientChannels config tenantId clientId device = .ok channels)
    (publishes : send.channel config = .ok channel) (listed : channel ∈ channels) :
    ∃ schedule s d c, Transition.run (step config json) initial schedule = some s ∧
      (∀ a ∈ schedule,
        Admits (· = send) (fun t x y => t = tenantId ∧ x = clientId ∧ y = device) a) ∧
      d ∈ s.broker.delivered ∧ c ∈ s.connections ∧ c.sub = d.task.sub ∧ d.task.topic = none ∧
      d.message.origin = send ∧ c.tenantId = tenantId ∧ c.clientId = clientId ∧
        c.device = device := by
  obtain ⟨t, phase, started, broker, connections⟩ :=
    lone_start config json tenantId clientId device channels
  obtain ⟨b, delivers, member⟩ :=
    lone_deliver ⟨0, tenantId, clientId, device, phase⟩ ⟨channel, send.event, send⟩ listed
  have opened := lone_open json tenantId clientId device subscribes
  have listening :=
    lone_listen config json ⟨0, tenantId, clientId, device, .storing⟩ rfl [] channels
  let counted : Service := { t with
    broker := t.broker.publish ⟨channel, send.event, send⟩
    messagesPublished := t.messagesPublished + 1 }
  have published : step config json t (.publish send .ok) = some counted := by
    simp [step, publishes, counted]
  have delivered :
      step config json counted (.deliver ⟨0, none, 0⟩) = some (counted.withBroker b) := by
    simp only [step, counted, broker, delivers, Option.map_some]
  have reached : Transition.run (step config json) initial
      ([.connect 0 tenantId clientId device, .advance 0 true] ++
        (List.replicate channels.length (.advance 0 true) ++
          [.advance 0 true, .publish send .ok, .deliver ⟨0, none, 0⟩])) =
            some (counted.withBroker b) := by
    refine Transition.run_append_iff.mpr
      ⟨_, opened, Transition.run_append_iff.mpr ⟨_, listening, ?_⟩⟩
    refine Transition.run_cons_iff.mpr ⟨t, started, Transition.run_cons_iff.mpr ⟨_, published, ?_⟩⟩
    exact Transition.run_cons_iff.mpr ⟨_, delivered, rfl⟩
  refine ⟨_, _, ⟨⟨0, none, 0⟩, channel, send.event, send⟩, ⟨0, tenantId, clientId, device, phase⟩,
    reached, ?_, member, ?_, rfl, rfl, rfl, rfl, rfl, rfl⟩
  · intro a inside
    simp only [List.mem_append, List.mem_cons, List.mem_replicate, List.not_mem_nil,
      or_false] at inside
    rcases inside with (rfl | rfl) | ⟨-, rfl⟩ | rfl | rfl | rfl <;> simp [Admits]
  · change _ ∈ t.connections
    rw [connections]
    exact List.mem_cons_self

end Service
end Propeller
