import PaymentProcessing.Propeller.Isolation

/-! What topic subscriptions can hear inside one tenant. A topic string is taken as it
comes, but the keyword in front of it keeps topic channels apart from client and device
channels, and nothing follows it. -/
namespace Propeller

variable {config : ClientConfig} {json : AttributesJson} {t : String}
  {R : Uuid → String → Prop} {P : Send → Prop}

/-- Right after one tenant, the two keywords differ. -/
theorem topicChannel_ne_client (same : topicChannel t x = "tenant:" ++ joined "client" t y) :
    False := by
  rw [topicChannel_joined] at same
  have lists := congrArg String.toList (tenant_cancel same)
  rw [joined_toList, joined_toList] at lists
  simp [Segments.bracket] at lists

/-- Of one tenant's publishes, only those to this very topic are on its channel. -/
theorem Send.topic_of_channel {send : Send} (tenant : send.tenant = t)
    (publishes : send.channel config = .ok (topicChannel t topic)) :
    ∃ req, send = .toTopic req ∧ req.topic = topic := by
  cases send with
  | toClient req =>
    simp only [Send.channel, publishToClient, refuse_bind_ok] at publishes
    obtain ⟨-, -, -, same⟩ := publishes
    cases tenant
    rw [clientChannel_joined] at same
    exact absurd (Except.ok.inj same).symm topicChannel_ne_client
  | toDevice req =>
    simp only [Send.channel, publishToClientDevice, refuse_bind_ok] at publishes
    obtain ⟨-, -, -, -, same⟩ := publishes
    cases tenant
    rw [deviceChannel_joined] at same
    exact absurd (Except.ok.inj same).symm topicChannel_ne_client
  | toTopic req =>
    simp only [Send.channel, publishToTopic, refuse_bind_ok] at publishes
    obtain ⟨-, -, -, same⟩ := publishes
    cases tenant
    exact ⟨req, rfl, topicChannel_cancel (Except.ok.inj same)⟩

/-- Publishers and subscribers belong to the tenant; topic requests and publishes are these. -/
def Belong (t : String) (R : Uuid → String → Prop) (P : Send → Prop) : Action → Prop
  | .publish send _ => send.tenant = t ∧ P send
  | .connect _ tenantId _ _ => tenantId = t
  | .topicSubscribe sub topic => R sub topic
  | _ => True

namespace Service
variable {s s' : Service}

/-- A topic task hears the channel it is kept under, which some request has named. -/
def Tuned (t : String) (R : Uuid → String → Prop) (task : TaskId) (channel : String) : Prop :=
  ∀ key, task.topic = some key → channel = key ∧ ∃ topic, R task.sub topic ∧ key = topicChannel t topic

/-- Every task is tuned, and every message comes from a publish of the tenant. -/
structure Wired (config : ClientConfig) (t : String) (R : Uuid → String → Prop) (P : Send → Prop)
    (s : Service) : Prop where
  broker : s.broker.Sound (Tuned t R) (Sent config fun send => send.tenant = t ∧ P send)
  tenants : ∀ c ∈ s.connections, c.tenantId = t
  adding : ∀ a ∈ s.adding, Tuned t R a.task a.channel

theorem tuned_base (sub : Uuid) (number : Nat) (channel : String) :
    Tuned t R ⟨sub, none, number⟩ channel := by
  intro key topic
  contradiction

theorem initial_wired : initial.Wired config t R P :=
  ⟨Broker.empty_sound, by simp [initial], by simp [initial]⟩

theorem Wired.withBroker (h : s.Wired config t R P) {broker : Broker Send}
    (sound : broker.Sound (Tuned t R) (Sent config fun send => send.tenant = t ∧ P send)) :
    (s.withBroker broker).Wired config t R P :=
  ⟨sound, h.tenants, h.adding⟩

/-- The phase of a connection, the device registry and the metrics play no part. -/
theorem Wired.enter (h : s.Wired config t R P) : (s.enter sub phase).Wired config t R P := by
  refine ⟨h.broker, ?_, h.adding⟩
  intro c member
  obtain ⟨old, present, rfl⟩ := (mem_enter s sub phase c).mp member
  have kept := h.tenants old present
  split
  · exact kept
  · exact kept

theorem Wired.congr (h : s.Wired config t R P) (broker : s'.broker = s.broker)
    (connections : s'.connections = s.connections) (adding : s'.adding = s.adding) :
    s'.Wired config t R P :=
  ⟨broker ▸ h.broker, connections ▸ h.tenants, adding ▸ h.adding⟩

theorem Advances.wired (h : Advances config json s c ok s') (before : s.Wired config t R P) :
    s'.Wired config t R P := by
  cases h with
  | connected => exact (before.withBroker before.broker.connect).enter
  | listening number channel =>
    exact (before.withBroker (before.broker.listen (tuned_base c.sub number channel))).enter
  | unconnected => exact before.enter
  | unsubscribed => exact (before.withBroker before.broker.close).enter
  | registering => exact (before.withBroker before.broker.start).enter
  | plain => exact ((before.withBroker before.broker.start).enter).congr rfl rfl rfl
  | stored => exact before.enter.congr rfl rfl rfl
  | deleted => exact before.enter.congr rfl rfl rfl
  | left => exact ((before.withBroker before.broker.unsubscribe).enter).congr rfl rfl rfl

theorem advanceAdd_wired (before : s.Wired config t R P) (member : a ∈ s.adding) :
    (s.advanceAdd a ok).Wired config t R P := by
  have tuned := before.adding a member
  have others : ∀ x ∈ s.adding.filter (·.task ≠ a.task), Tuned t R x.task x.channel :=
    fun x inside => before.adding x (List.mem_of_mem_filter inside)
  have going (phase : AddPhase) :
      ∀ x ∈ { a with phase := phase } :: s.adding.filter (·.task ≠ a.task),
      Tuned t R x.task x.channel := by
    intro x inside
    rcases List.mem_cons.mp inside with rfl | other
    · exact tuned
    · exact others x other
  unfold advanceAdd
  split
  · exact ⟨before.broker.connect, before.tenants, going .subscribing⟩
  · exact ⟨before.broker, before.tenants, others⟩
  · exact ⟨before.broker.listen tuned, before.tenants, going .inserting⟩
  · exact ⟨before.broker.close, before.tenants, others⟩
  · exact ⟨before.broker.finishAdd, before.tenants, others⟩

theorem Moves.wired (h : Moves config json s a s') (before : s.Wired config t R P)
    (belong : Belong t R P a) : s'.Wired config t R P := by
  cases h with
  | refused => exact before
  | connect sub tenantId clientId device channels absent checked =>
    refine ⟨before.broker.congr (List.Subset.refl _) rfl, ?_, before.adding⟩
    intro c member
    cases List.mem_append.mp member with
    | inl old => exact before.tenants c old
    | inr new =>
      rw [List.mem_singleton.mp new]
      exact belong
  | advance sub c ok s' found advanced => exact advanced.wired before
  | disconnect => exact before.enter
  | abandon => exact before.enter
  | topicSubscribe sub c topic channel found phase named checked =>
    refine ⟨before.broker, before.tenants, ?_⟩
    intro a inside
    rcases List.mem_cons.mp inside with rfl | old
    · rintro key ⟨⟩
      have tenant := before.tenants c (connection_mem found).1
      exact ⟨rfl, topic, belong, tenant ▸ (scopedTopic_ok named).2⟩
    · exact before.adding a old
  | advanceAdd a ok member => exact advanceAdd_wired before member
  | topicUnsubscribe sub c topic channel broker found phase named removed =>
    exact before.withBroker (before.broker.removeSubscription removed)
  | publish send reply channel checked =>
    have published : (if reply = .refused then s.broker
        else s.broker.publish ⟨channel, send.event, send⟩).Sound (Tuned t R)
          (Sent config fun send => send.tenant = t ∧ P send) := by
      split
      · exact before.broker
      · exact before.broker.publish ⟨checked, belong⟩
    exact ⟨published, before.tenants, before.adding⟩
  | turn a broker turns => exact before.withBroker (turns.sound before.broker)

/-- Inside one tenant, an event that comes through a subscription to a topic was published
to exactly this topic. -/
theorem run_topic_events (t : String) (schedule : List Action) (s : Service) (d : Delivery Send)
    (h : Transition.run (step config json) initial schedule = some s)
    (publishers : ∀ send reply, .publish send reply ∈ schedule → send.tenant = t)
    (subscribers : ∀ sub tenantId clientId device,
      .connect sub tenantId clientId device ∈ schedule → tenantId = t)
    (delivered : d ∈ s.broker.delivered) (through : d.task.topic = some key) :
    ∃ topic, .topicSubscribe d.task.sub topic ∈ schedule ∧ key = topicChannel t topic ∧
      (∀ other, key = topicChannel t other → other = topic) ∧
      ∃ req reply, d.message.origin = .toTopic req ∧ req.topic = topic ∧
        .publish (.toTopic req) reply ∈ schedule := by
  let requests (sub : Uuid) (topic : String) : Prop := .topicSubscribe sub topic ∈ schedule
  let publishes (send : Send) : Prop := ∃ reply, .publish send reply ∈ schedule
  have belong : ∀ a ∈ schedule, Belong t requests publishes a := by
    intro a member
    cases a with
    | publish send reply => exact ⟨publishers send reply member, reply, member⟩
    | connect sub tenantId clientId device => exact subscribers sub tenantId clientId device member
    | topicSubscribe sub topic => exact member
    | _ => trivial
  have meets : Transition.Meets (step config json) (fun _ a => Belong t requests publishes a) initial
      schedule := Transition.Meets.of_forall belong initial
  have wired : s.Wired config t requests publishes := by
    refine Transition.invariant_of_meets (I := Wired config t requests publishes) ?_ initial_wired
      meets h
    intro _ _ _ before admits stepped
    exact (step_moves stepped).wired before admits
  obtain ⟨tuned, channel, tenant, published⟩ := wired.broker.delivered d delivered
  obtain ⟨same, topic, requested, named⟩ := tuned key through
  rw [same, named] at channel
  obtain ⟨req, origin, addressed⟩ := Send.topic_of_channel tenant channel
  obtain ⟨reply, sent⟩ := published
  refine ⟨topic, requested, named, ?_, req, reply, origin, addressed, origin ▸ sent⟩
  intro other equal
  exact topicChannel_cancel (equal.symm.trans named)

/-- Alice subscribes to a topic that spells a client channel, and an event is published to it. -/
def imitation : String := "x:client:bob"

def imitationRequest : SendEventToTopicRequest := ⟨"acme", imitation, "update", [1]⟩

def imitationTask : TaskId := ⟨0, some (topicChannel "acme" imitation), 1⟩

def imitationSchedule : List Action :=
  [.connect 0 "acme" "alice" none, .advance 0 true, .advance 0 true, .advance 0 true,
    .topicSubscribe 0 imitation, .advanceAdd imitationTask true, .advanceAdd imitationTask true,
    .advanceAdd imitationTask true, .publish (.toTopic imitationRequest) .ok, .deliver imitationTask]

theorem imitation_heard : ∃ req reply, Send.toTopic imitationRequest = .toTopic req ∧
    req.topic = imitation ∧ .publish (.toTopic req) reply ∈ imitationSchedule := by
  have delivered : (Transition.run (step AppConfig.shipped.client plainJson) initial
      imitationSchedule).map (·.broker.delivered) =
        some [⟨imitationTask, topicChannel "acme" imitation, [1], .toTopic imitationRequest⟩] := by
    decide +kernel
  obtain ⟨s, reached, only⟩ := Option.map_eq_some_iff.mp delivered
  have member : (⟨imitationTask, topicChannel "acme" imitation, [1],
      .toTopic imitationRequest⟩ : Delivery Send) ∈ s.broker.delivered := by simp [only]
  obtain ⟨topic, -, -, unique, found⟩ := run_topic_events "acme" imitationSchedule s _ reached
    (by simp [imitationSchedule, imitationRequest, Send.tenant])
    (by simp +contextual [imitationSchedule]) member rfl
  rw [unique imitation rfl]
  exact found

end Service
end Propeller
