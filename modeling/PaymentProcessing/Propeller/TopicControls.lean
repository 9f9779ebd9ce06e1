import PaymentProcessing.Propeller.Accounts

/-! The topic controls of a subscription through the steps of the service: which action writes
the entry of which subscription, and which ones count topic listeners. -/
namespace Propeller
open Relational

/-- The subscription whose entry an action may write; the others at most remove entries. -/
def Action.writes : Action → Option Uuid
  | .connect sub .. | .topicUnsubscribe sub _ => some sub
  | .advanceAdd task _ => some task.sub
  | _ => none

/-- Actions that may change the number of topic listeners. -/
def Action.counts : Action → Bool
  | .advanceAdd .. | .deliver _ | .stop _ | .endOfStream _ => true
  | _ => false

/-- The keys of the topic controls of a subscription are these. -/
def Service.Keyed (s : Service) (sub : Uuid) (K : String → Prop) : Prop :=
  ∀ entry ∈ s.broker.subscriptions, entry.id = sub →
    ∀ channel, channel ∈ entry.topicControls.map Prod.fst ↔ K channel

namespace Service
variable {config : ClientConfig} {json : AttributesJson} {s t : Service} {K : String → Prop}

theorem Keyed.congr (h : s.Keyed sub K) (less : t.broker.subscriptions ⊆ s.broker.subscriptions) :
    t.Keyed sub K :=
  fun entry member => h entry (less member)

/-- An update of the entries of one subscription. -/
theorem Keyed.update (h : s.Keyed sub K) {set : ActiveSubscription → ActiveSubscription}
    (subscriptions : t.broker.subscriptions = updateWhere (·.id == other) set s.broker.subscriptions)
    (id : ∀ entry, (set entry).id = entry.id)
    (keys : other = sub → ∀ entry, (∀ channel, channel ∈ entry.topicControls.map Prod.fst ↔ K channel) →
      ∀ channel, channel ∈ (set entry).topicControls.map Prod.fst ↔ K' channel)
    (same : other ≠ sub → ∀ channel, K channel ↔ K' channel) : t.Keyed sub K' := by
  intro entry member named
  rw [subscriptions] at member
  obtain ⟨old, present, rfl⟩ := mem_updateWhere.mp member
  split <;> rename_i hit
  · rw [if_pos hit, id] at named
    have equal : old.id = other := by simpa using hit
    exact keys (equal.symm.trans named) old (h old present named)
  · rw [if_neg hit] at named
    have different : other ≠ sub := by
      rintro rfl
      exact hit (by simpa using named)
    intro channel
    exact (h old present named channel).trans (same different channel)

theorem mem_filter_keys (controls : List (String × Nat)) (channel key : String) :
    key ∈ (controls.filter (·.1 ≠ channel)).map Prod.fst ↔
      key ∈ controls.map Prod.fst ∧ key ≠ channel := by
  simp only [List.mem_map, List.mem_filter, decide_eq_true_eq]
  constructor
  · rintro ⟨control, ⟨inside, other⟩, rfl⟩
    exact ⟨⟨control, inside, rfl⟩, other⟩
  · rintro ⟨⟨control, inside, rfl⟩, other⟩
    exact ⟨control, ⟨inside, other⟩, rfl⟩

theorem Keyed.removed {broker : Broker Send} (h : s.Keyed sub K)
    (removed : s.broker.removeSubscription channel other = .ok broker) :
    (s.withBroker broker).Keyed sub fun key => K key ∧ ¬ (other = sub ∧ key = channel) := by
  obtain ⟨entry, -, -, rfl⟩ := Broker.removeSubscription_ok removed
  refine h.update rfl (fun _ => rfl) ?_ ?_
  · rintro rfl entry keys key
    rw [mem_filter_keys, keys]
    simp
  · intro different key
    simp [different]

theorem Keyed.advanceAdd (h : s.Keyed sub K) (a : Adding) (ok : Bool) :
    (s.advanceAdd a ok).Keyed sub fun key =>
      K key ∨ (a.task.sub = sub ∧ a.phase = .inserting ∧ key = a.channel) := by
  have unchanged (phase : a.phase ≠ .inserting) : s.Keyed sub fun key =>
      K key ∨ (a.task.sub = sub ∧ a.phase = .inserting ∧ key = a.channel) := by
    simpa [phase] using h
  unfold Service.advanceAdd
  split
  · exact (unchanged (by simp [*])).congr (List.Subset.refl _)
  · exact (unchanged (by simp [*])).congr (List.Subset.refl _)
  · exact (unchanged (by simp [*])).congr (List.Subset.refl _)
  · exact (unchanged (by simp [*])).congr (List.Subset.refl _)
  · rename_i phase
    refine h.update rfl (fun _ => rfl) ?_ ?_
    · rintro rfl entry keys key
      rw [List.map_append, List.mem_append, mem_filter_keys, keys]
      by_cases new : key = a.channel
      · simp [new, phase]
      · simp [new]
    · intro different key
      simp [different]

theorem Advances.subscriptions {c : Connection} (h : Advances config json s c ok t) :
    t.broker.subscriptions ⊆ s.broker.subscriptions := by
  cases h with
  | left phase =>
    intro entry member
    have inside : entry ∈ (s.broker.unsubscribe c.sub).subscriptions := member
    rw [Broker.unsubscribe_subscriptions] at inside
    exact List.mem_of_mem_filter inside
  | _ => exact List.Subset.refl _

theorem step_subscriptions (stepped : s.step config json a = some t) (reads : a.writes = none) :
    t.broker.subscriptions ⊆ s.broker.subscriptions := by
  have moves := step_moves stepped
  cases moves with
  | connect | topicUnsubscribe | advanceAdd => contradiction
  | advance sub c ok _ found advanced => exact advanced.subscriptions
  | publish send reply channel checked =>
    have same : (if reply = .refused then s.broker
        else s.broker.publish ⟨channel, send.event, send⟩).subscriptions = s.broker.subscriptions := by
      split
      · rfl
      · rfl
    exact same ▸ List.Subset.refl _
  | turn a broker turns => exact turns.subscriptions ▸ List.Subset.refl _
  | _ => exact List.Subset.refl _

/-- What an action writes for one subscription is nothing to another. -/
theorem step_keyed (stepped : s.step config json a = some t) (other : a.writes ≠ some sub)
    (keyed : s.Keyed sub K) : t.Keyed sub K := by
  have moves := step_moves stepped
  cases moves with
  | refused => exact keyed
  | connect sub' tenantId clientId device channels absent checked =>
    intro entry member named
    cases List.mem_append.mp member with
    | inl old => exact keyed entry old named
    | inr new =>
      rw [List.mem_singleton.mp new] at named
      exact absurd (congrArg some named) other
  | topicUnsubscribe sub' c topic channel broker found phase named removed =>
    have different : sub' ≠ sub := fun same => other (congrArg some same)
    have left := keyed.removed removed
    simpa [different] using left
  | advanceAdd a ok =>
    have different : a.task.sub ≠ sub := fun same => other (congrArg some same)
    have went := keyed.advanceAdd a ok
    simpa [different] using went
  | turn a broker turns => exact keyed.congr (turns.subscriptions ▸ List.Subset.refl _)
  | _ => exact keyed.congr (step_subscriptions stepped rfl)

theorem step_registrations (stepped : s.step config json a = some t)
    (arrives : ∀ sub tenantId clientId device, a ≠ .connect sub tenantId clientId device) :
    t.registrations ⊆ s.registrations := by
  have moves := step_moves stepped
  cases moves with
  | connect sub tenantId clientId device => exact absurd rfl (arrives sub tenantId clientId device)
  | topicUnsubscribe sub c topic channel broker found phase named removed =>
    intro id member
    have same := Broker.removeSubscription_ids removed
    simp only [registrations, withBroker, same] at member
    exact member
  | advanceAdd a ok => exact (advanceAdd_registrations s a ok).1 ▸ List.Subset.refl _
  | refused => exact List.Subset.refl _
  | turn a broker turns => exact List.map_subset _ (turns.subscriptions ▸ List.Subset.refl _)
  | _ => exact List.map_subset _ (step_subscriptions stepped rfl)

theorem connection_enter (s : Service) (sub other : Uuid) (phase : Phase) :
    (s.enter other phase).connection sub =
      (s.connection sub).map fun c => if c.sub == other then { c with phase := phase } else c := by
  simp only [connection, enter, updateWhere, List.find?_map]
  refine congrArg _ (congrArg (List.find? · _) ?_)
  funext c
  simp only [Function.comp_apply]
  split
  · rfl
  · rfl

/-- A connection keeps its tenant. -/
theorem step_connection (stepped : s.step config json a = some t)
    (found : s.connection sub = some c) : ∃ c', t.connection sub = some c' ∧ c'.tenantId = c.tenantId := by
  rcases (step_moves stepped).connections with same | ⟨other, phase, same⟩ | ⟨new, _, _, _, same⟩
  · exact ⟨c, by rw [connection, same]; exact found, rfl⟩
  · have entered := connection_enter s sub other phase
    rw [found, Option.map_some] at entered
    refine ⟨_, by rw [connection, same]; exact entered, ?_⟩
    split
    · rfl
    · rfl
  · refine ⟨c, ?_, rfl⟩
    rw [connection, same, List.find?_append]
    exact Option.or_eq_some_iff.mpr (Or.inl found)

/-- What is registered belongs to a connection. -/
theorem step_known (stepped : s.step config json a = some t)
    (known : ∀ id ∈ s.registrations, ∃ c, s.connection id = some c) :
    ∀ id ∈ t.registrations, ∃ c, t.connection id = some c := by
  have kept {id} (member : id ∈ s.registrations) : ∃ c, t.connection id = some c := by
    obtain ⟨c, found⟩ := known id member
    obtain ⟨c', found', -⟩ := step_connection stepped found
    exact ⟨c', found'⟩
  intro id member
  have moves := step_moves stepped
  cases moves with
  | refused => exact known id member
  | connect sub tenantId clientId device channels absent checked =>
    simp only [registrations, Broker.register, List.map_append, List.mem_append] at member
    rcases member with old | new
    · exact kept old
    · have same : id = sub := by simpa using new
      refine ⟨⟨sub, tenantId, clientId, device, .opening s.next false channels⟩, ?_⟩
      rw [connection, List.find?_append, Option.or_eq_some_iff]
      refine Or.inr ⟨same ▸ absent, ?_⟩
      simp [same]
  | turn a broker turns =>
    refine kept (step_registrations stepped ?_ member)
    rintro _ _ _ _ rfl
    cases turns
  | _ => exact kept (step_registrations stepped (by simp) member)

/-- An addition is made under its own channel. -/
theorem step_adding (stepped : s.step config json a = some t)
    (adding : ∀ x ∈ s.adding, x.task.topic = some x.channel) :
    ∀ x ∈ t.adding, x.task.topic = some x.channel := by
  have moves := step_moves stepped
  cases moves with
  | topicSubscribe sub c topic channel found phase named checked =>
    intro x member
    rcases List.mem_cons.mp member with rfl | old
    · rfl
    · exact adding x old
  | advanceAdd a ok inside =>
    have others : ∀ x ∈ s.adding.filter (·.task ≠ a.task), x.task.topic = some x.channel :=
      fun x member => adding x (List.mem_of_mem_filter member)
    have going (phase : AddPhase) :
        ∀ x ∈ { a with phase := phase } :: s.adding.filter (·.task ≠ a.task),
          x.task.topic = some x.channel := by
      intro x member
      rcases List.mem_cons.mp member with rfl | other
      · exact adding a inside
      · exact others x other
    unfold Service.advanceAdd
    split
    · exact going .subscribing
    · exact others
    · exact going .inserting
    · exact others
    · exact others
  | advance sub c ok _ found advanced =>
    cases advanced with
    | _ => exact adding
  | _ => exact adding

/-- Only tasks and additions count topic listeners. -/
theorem step_listeners (stepped : s.step config json a = some t)
    (other : a.counts = false) : t.broker.activeTopicListeners = s.broker.activeTopicListeners := by
  have moves := step_moves stepped
  cases moves with
  | advance sub c ok _ found advanced =>
    cases advanced with
    | left phase =>
      change (s.broker.unsubscribe c.sub).activeTopicListeners = _
      unfold Broker.unsubscribe
      split
      · rfl
      · rfl
    | _ => rfl
  | topicUnsubscribe sub c topic channel broker found phase named removed =>
    obtain ⟨entry, -, -, rfl⟩ := Broker.removeSubscription_ok removed
    rfl
  | publish send reply channel checked =>
    change (if reply = .refused then s.broker
      else s.broker.publish ⟨channel, send.event, send⟩).activeTopicListeners = _
    split
    · rfl
    · rfl
  | turn a broker turns =>
    cases turns with
    | receive sub message _ received =>
      obtain ⟨rest, -, rfl⟩ := Broker.receive_ok received
      rfl
    | hangUp | drop => rfl
    | _ => contradiction
  | advanceAdd => contradiction
  | _ => rfl

theorem advanceAdd_listeners (s : Service) (a : Adding) (ok : Bool) :
    (s.advanceAdd a ok).broker.activeTopicListeners =
      if a.phase = .inserting then s.broker.activeTopicListeners + 1
      else s.broker.activeTopicListeners := by
  unfold Service.advanceAdd
  split <;> rename_i phase
  · rw [phase, if_neg (by simp)]
    rfl
  · rw [phase, if_neg (by simp)]
  · rw [phase, if_neg (by simp)]
    rfl
  · rw [phase, if_neg (by simp)]
    rfl
  · rw [phase, if_pos rfl]
    rfl

theorem advanceAdd_of_step {a : Adding} (found : s.adding.find? (·.task = task) = some a)
    (stepped : s.step config json (.advanceAdd task ok) = some t) : t = s.advanceAdd a ok := by
  simp only [step, found, Option.map_some, Option.some.injEq] at stepped
  exact stepped.symm

end Service

end Propeller
