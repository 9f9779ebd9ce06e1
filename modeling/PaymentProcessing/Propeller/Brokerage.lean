import PaymentProcessing.Propeller.Erasure
import PaymentProcessing.Propeller.Fates
import PaymentProcessing.Propeller.Lifecycle

/-! `PushService` and its front ends as callers of `RedisPubSub`: every run of the server is one
of the broker, with a call of the broker for each call of the service that comes down to one. -/
namespace Propeller
open Relational Transition

/-- `subscribe` has returned a subscription. -/
def Phase.begun (phase : Phase) : Prop := phase.stage = .returned

/-- The handler has returned. -/
def Phase.concluded : Phase → Prop
  | .closed | .failed | .abandoned => True
  | _ => False

namespace Service
variable {config : ClientConfig} {json : AttributesJson} {s t : Service} {c : Connection}
  {phase : Phase} {P : Phase → Prop}

/-- The connection of the subscription is in such a phase. -/
def InPhase (P : Phase → Prop) (s : Service) (sub : Uuid) : Prop :=
  ∃ c ∈ s.connections, c.sub = sub ∧ P c.phase

theorem InPhase.enter (h : s.InPhase P other) (distinct : Distinct Connection.sub s.connections)
    (found : s.connection sub = some c) (kept : P c.phase → P phase) :
    (s.enter sub phase).InPhase P other := by
  obtain ⟨d, member, same, holds⟩ := h
  obtain ⟨present, named⟩ := connection_mem found
  by_cases hit : d.sub = sub
  · have equal := distinct.unique member present (hit.trans named.symm)
    subst equal
    exact ⟨_, (mem_entered distinct found).mpr (Or.inl rfl), same, kept holds⟩
  · exact ⟨d, (mem_entered distinct found).mpr (Or.inr ⟨member, hit⟩), same, holds⟩

theorem inPhase_entered (distinct : Distinct Connection.sub s.connections)
    (found : s.connection sub = some c) (holds : P phase) : (s.enter sub phase).InPhase P sub :=
  ⟨_, (mem_entered distinct found).mpr (Or.inl rfl), (connection_mem found).2, holds⟩

theorem inPhase_enter (distinct : Distinct Connection.sub s.connections)
    (found : s.connection sub = some c) : (s.enter sub phase).InPhase P other ↔
      other = sub ∧ P phase ∨ other ≠ sub ∧ s.InPhase P other := by
  obtain ⟨-, named⟩ := connection_mem found
  constructor
  · rintro ⟨d, member, rfl, holds⟩
    rcases (mem_entered distinct found).mp member with rfl | ⟨old, different⟩
    · exact Or.inl ⟨named, holds⟩
    · exact Or.inr ⟨different, d, old, rfl, holds⟩
  · rintro (⟨rfl, holds⟩ | ⟨different, d, member, rfl, holds⟩)
    · exact inPhase_entered distinct found holds
    · exact ⟨d, (mem_entered distinct found).mpr (Or.inr ⟨member, different⟩), rfl, holds⟩

theorem inPhase_iff (distinct : Distinct Connection.sub s.connections)
    (found : s.connection sub = some c) : s.InPhase P sub ↔ P c.phase := by
  obtain ⟨member, named⟩ := connection_mem found
  constructor
  · rintro ⟨d, present, same, holds⟩
    rwa [← distinct.unique present member (same.trans named.symm)]
  · exact fun holds => ⟨c, member, named, holds⟩

theorem inPhase_found (distinct : Distinct Connection.sub s.connections) (h : s.InPhase P sub) :
    ∃ c, s.connection sub = some c ∧ P c.phase := by
  cases found : s.connection sub with
  | none =>
    obtain ⟨d, member, same, -⟩ := h
    exact absurd same (connection_fresh found d member)
  | some c => exact ⟨c, rfl, (inPhase_iff distinct found).mp h⟩

/-- What runs for a subscription, or drops it, comes after `subscribe`. -/
structure Regular (s : Service) : Prop where
  distinct : Distinct Connection.sub s.connections
  running : ∀ l ∈ s.broker.listeners, l.running = true → s.InPhase Phase.begun l.id.sub
  adding : ∀ a ∈ s.adding, s.InPhase Phase.begun a.task.sub
  dropped : ∀ sub ∈ s.broker.dropped, s.InPhase Phase.concluded sub

theorem initial_regular : initial.Regular := by
  refine ⟨List.nodup_nil, ?_, ?_, ?_⟩ <;> simp [initial, Broker.empty]

/-- What is running was so before, or is of a subscription that was begun. -/
def Runs (begun : Uuid → Prop) (before after : List (Listener Send)) : Prop :=
  ∀ l' ∈ after, l'.running = true →
    (∃ l ∈ before, l.id = l'.id ∧ l.running = true) ∨ begun l'.id.sub

section Runs
variable {begun : Uuid → Prop} {before after last : List (Listener Send)} {b b' : Broker Send}

theorem Runs.trans (first : Runs begun before after) (second : Runs begun after last) :
    Runs begun before last := by
  intro l' member up
  rcases second l' member up with ⟨l, present, same, running⟩ | began
  · exact same ▸ first l present running
  · exact Or.inr began

theorem runs_subset (fewer : after ⊆ before) : Runs begun before after :=
  fun l member up => Or.inl ⟨l, fewer member, rfl, up⟩

theorem runs_map {f : Listener Send → Listener Send} (id : ∀ l, (f l).id = l.id)
    (running : ∀ l, (f l).running = true → l.running = true ∨ begun l.id.sub) :
    Runs begun before (before.map f) := by
  intro l' member up
  obtain ⟨l, present, rfl⟩ := List.mem_map.mp member
  rw [id]
  exact (running l up).imp_left fun before => ⟨l, present, rfl, before⟩

/-- Rewriting a listener leaves it running or not, unless it starts the task. -/
theorem runs_update {hit : Listener Send → Bool} {set : Listener Send → Listener Send}
    (id : ∀ l, (set l).id = l.id) (running : ∀ l, hit l = true → (set l).running = true →
      l.running = true ∨ begun l.id.sub) : Runs begun before (updateWhere hit set before) := by
  refine runs_map (fun l => ?_) fun l up => ?_
  · split
    · exact id l
    · rfl
  · split at up <;> rename_i told
    · exact running l told up
    · exact Or.inl up

theorem runs_connect (b : Broker Send) (task : TaskId) :
    Runs begun b.listeners (b.connect task).listeners := by
  intro l member up
  rcases List.mem_append.mp member with old | new
  · exact Or.inl ⟨l, old, rfl, up⟩
  · rw [List.mem_singleton.mp new] at up
    cases up

theorem runs_start (b : Broker Send) (task : TaskId) (began : begun task.sub) :
    Runs begun b.listeners (b.start task).listeners := by
  refine runs_update (fun _ => rfl) fun l told _ => Or.inr ?_
  have same : l.id = task := by simpa using told
  exact same ▸ began

theorem runs_shutdown (b : Broker Send) (tasks : List TaskId) :
    Runs begun b.listeners (b.shutdown tasks).listeners :=
  runs_update (fun _ => rfl) fun _ _ up => Or.inl up

theorem runs_unsubscribe (b : Broker Send) (sub : Uuid) :
    Runs begun b.listeners (b.unsubscribe sub).listeners := by
  unfold Broker.unsubscribe
  split
  · exact runs_subset (List.Subset.refl _)
  · exact runs_shutdown b _

theorem runs_finishes (h : Broker.Finishes b task l b') :
    Runs begun b.listeners b'.listeners := by
  rw [h.state]
  exact runs_subset List.filter_sublist.subset

theorem runs_turns {a : Action} (h : b.Turns .turn a b') : Runs begun b.listeners b'.listeners := by
  cases h.outcome with
  | finished task l _ _ finishes => exact runs_finishes finishes
  | delivered task l message rest _ delivers =>
    rw [delivers.listeners]
    refine runs_map (Broker.took_id task) fun l up => Or.inl ?_
    unfold Broker.took at up
    split at up <;> exact up
  | hungUp task => exact runs_update (fun _ => rfl) fun _ _ up => Or.inl up
  | received sub message _ received =>
    obtain ⟨rest, -, rfl⟩ := Broker.receive_ok received
    exact runs_subset (List.Subset.refl _)
  | dropped sub => exact runs_subset (List.Subset.refl _)

theorem runs_publish (b : Broker Send) (message : Message Send) :
    Runs begun b.listeners (b.publish message).listeners := by
  refine runs_map (Broker.offer_id message) fun l up => Or.inl ?_
  unfold Broker.offer at up
  split at up <;> exact up

end Runs

/-- The same connections, and nothing new that has not been begun. -/
theorem Regular.steady (h : s.Regular) (connections : t.connections = s.connections)
    (runs : Runs (s.InPhase Phase.begun) s.broker.listeners t.broker.listeners)
    (adding : ∀ a ∈ t.adding, a ∈ s.adding ∨ s.InPhase Phase.begun a.task.sub)
    (dropped : ∀ sub ∈ t.broker.dropped, sub ∈ s.broker.dropped ∨ s.InPhase Phase.concluded sub) :
    t.Regular := by
  have same (P : Phase → Prop) (sub : Uuid) (before : s.InPhase P sub) : t.InPhase P sub := by
    rwa [InPhase, connections]
  refine ⟨connections ▸ h.distinct, fun l' member up => ?_, fun a member => ?_, fun sub member => ?_⟩
  · rcases runs l' member up with ⟨l, present, equal, running⟩ | began
    · exact same _ _ (equal ▸ h.running l present running)
    · exact same _ _ began
  · exact same _ _ ((adding a member).elim (h.adding a) id)
  · exact same _ _ ((dropped sub member).elim (h.dropped sub) id)

/-- One connection goes on to a phase that keeps what it had reached. -/
theorem Regular.entered (h : s.Regular) (found : s.connection sub = some c)
    (connections : t.connections = (s.enter sub phase).connections)
    (begun : c.phase.begun → phase.begun) (concluded : ¬ c.phase.concluded)
    (runs : Runs ((s.enter sub phase).InPhase Phase.begun) s.broker.listeners t.broker.listeners)
    (adding : t.adding = s.adding) (dropped : t.broker.dropped = s.broker.dropped) : t.Regular := by
  have same (P : Phase → Prop) (other : Uuid) (after : (s.enter sub phase).InPhase P other) :
      t.InPhase P other := by
    rwa [InPhase, connections]
  have kept (other : Uuid) (before : s.InPhase Phase.begun other) : t.InPhase Phase.begun other :=
    same _ _ (before.enter h.distinct found begun)
  refine ⟨?_, fun l' member up => ?_, fun a member => ?_, fun other member => ?_⟩
  · rw [connections]
    exact h.distinct.updateWhere fun _ => rfl
  · rcases runs l' member up with ⟨l, present, equal, running⟩ | began
    · exact kept _ (equal ▸ h.running l present running)
    · exact same _ _ began
  · exact kept _ (h.adding a (adding ▸ member))
  · exact same _ _ ((h.dropped other (dropped ▸ member)).enter h.distinct found
      fun ended => absurd ended concluded)

theorem Advances.regular (h : Advances config json s c ok t) (before : s.Regular)
    (found : s.connection c.sub = some c) : t.Regular := by
  cases h with
  | connected number todo phase =>
    exact before.entered found rfl (by simp [phase, Phase.begun, Phase.stage])
      (by simp [phase, Phase.concluded]) (runs_connect _ _) rfl rfl
  | listening number channel todo phase =>
    exact before.entered found rfl (by simp [phase, Phase.begun, Phase.stage])
      (by simp [phase, Phase.concluded]) (runs_update (fun _ => rfl) fun _ _ up => Or.inl up) rfl rfl
  | unconnected number todo phase =>
    exact before.entered found rfl (by simp [phase, Phase.begun, Phase.stage])
      (by simp [phase, Phase.concluded]) (runs_subset (List.Subset.refl _)) rfl rfl
  | unsubscribed number channel todo phase =>
    exact before.entered found rfl (by simp [phase, Phase.begun, Phase.stage])
      (by simp [phase, Phase.concluded]) (runs_subset List.filter_sublist.subset) rfl rfl
  | registering number dev phase =>
    exact before.entered found rfl (fun _ => rfl) (by simp [phase, Phase.concluded])
      (runs_start _ _ (inPhase_entered before.distinct found rfl)) rfl rfl
  | plain number phase =>
    exact before.entered found rfl (fun _ => rfl) (by simp [phase, Phase.concluded])
      (runs_start _ _ (inPhase_entered before.distinct found rfl)) rfl rfl
  | stored phase =>
    exact before.entered found rfl (fun _ => rfl) (by simp [phase, Phase.concluded])
      (runs_subset (List.Subset.refl _)) rfl rfl
  | deleted phase =>
    exact before.entered found rfl (fun _ => rfl) (by simp [phase, Phase.concluded])
      (runs_subset (List.Subset.refl _)) rfl rfl
  | left phase =>
    exact before.entered found rfl (fun _ => rfl) (by simp [phase, Phase.concluded])
      (runs_unsubscribe _ _) rfl (Broker.unsubscribe_dropped _ _)

theorem advanceAdd_regular (before : s.Regular) (member : a ∈ s.adding) (ok : Bool) :
    (s.advanceAdd a ok).Regular := by
  have going (phase : AddPhase) (b : Adding)
      (inside : b ∈ { a with phase := phase } :: s.adding.filter (·.task ≠ a.task)) :
      b ∈ s.adding ∨ s.InPhase Phase.begun b.task.sub := by
    rcases List.mem_cons.mp inside with rfl | old
    · exact Or.inr (before.adding a member)
    · exact Or.inl (List.mem_of_mem_filter old)
  have gone (b : Adding) (inside : b ∈ s.adding.filter (·.task ≠ a.task)) :
      b ∈ s.adding ∨ s.InPhase Phase.begun b.task.sub := Or.inl (List.mem_of_mem_filter inside)
  unfold advanceAdd
  split
  · exact before.steady rfl (runs_connect _ _) (going _) fun _ => Or.inl
  · exact before.steady rfl (runs_subset (List.Subset.refl _)) gone fun _ => Or.inl
  · exact before.steady rfl (runs_update (fun _ => rfl) fun _ _ up => Or.inl up) (going _)
      fun _ => Or.inl
  · exact before.steady rfl (runs_subset List.filter_sublist.subset) gone fun _ => Or.inl
  · refine before.steady rfl ((runs_shutdown s.broker _).trans (runs_start _ _ ?_)) gone
      fun _ => Or.inl
    exact before.adding a member

theorem advanceAdd_dropped (s : Service) (a : Adding) (ok : Bool) :
    (s.advanceAdd a ok).broker.dropped = s.broker.dropped := by
  unfold advanceAdd
  split <;> rfl

theorem Advances.dropped (h : Advances config json s c ok t) : t.broker.dropped = s.broker.dropped := by
  cases h with
  | left => exact Broker.unsubscribe_dropped _ _
  | _ => rfl

theorem step_drop (h : s.step config json (.drop sub) = some t) :
    s.InPhase Phase.concluded sub ∧ t = s.withBroker (s.broker.drop sub) := by
  obtain ⟨c, found, dropped⟩ := Option.bind_eq_some_iff.mp h
  obtain ⟨member, same⟩ := connection_mem found
  split at dropped
  · rename_i ended
    cases dropped
    refine ⟨⟨c, member, same, ?_⟩, rfl⟩
    rcases ended with phase | phase | phase <;> simp [phase, Phase.concluded]
  · contradiction

/-- Only the receiver of a handler that has returned is dropped. -/
theorem step_dropped (h : s.step config json a = some t) :
    ∀ sub ∈ t.broker.dropped, sub ∈ s.broker.dropped ∨ s.InPhase Phase.concluded sub := by
  have kept (same : t.broker.dropped = s.broker.dropped) :
      ∀ sub ∈ t.broker.dropped, sub ∈ s.broker.dropped ∨ s.InPhase Phase.concluded sub :=
    fun sub member => Or.inl (same ▸ member)
  have moves := step_moves h
  cases moves with
  | advance sub c ok _ found advanced => exact kept advanced.dropped
  | advanceAdd a ok => exact kept (advanceAdd_dropped s a ok)
  | topicUnsubscribe sub c topic channel broker found phase named removed =>
    obtain ⟨entry, -, -, rfl⟩ := Broker.removeSubscription_ok removed
    exact kept rfl
  | publish send reply =>
    refine kept ?_
    dsimp only
    split <;> rfl
  | turn a broker turns =>
    rcases turns.dropped with same | ⟨gone, rfl, dropped⟩
    · exact kept same
    · intro sub member
      rcases List.mem_cons.mp (dropped ▸ member) with rfl | old
      · exact Or.inr (step_drop h).1
      · exact Or.inl old
  | _ => exact kept rfl

theorem step_regular (h : s.step config json a = some t) (before : s.Regular) : t.Regular := by
  have dropped := step_dropped h
  have moves := step_moves h
  cases moves with
  | refused => exact before
  | connect sub tenantId clientId device channels absent checked =>
    have kept (P : Phase → Prop) (other : Uuid) (held : s.InPhase P other) :
        InPhase P { s with
          broker := s.broker.register sub s.next
          connections := s.connections ++
            [⟨sub, tenantId, clientId, device, .opening s.next false channels⟩]
          next := s.next + 1 } other := by
      obtain ⟨c, member, holds⟩ := held
      exact ⟨c, List.mem_append_left _ member, holds⟩
    exact ⟨before.distinct.append (connection_fresh absent),
      fun l member up => kept _ _ (before.running l member up),
      fun a member => kept _ _ (before.adding a member),
      fun other member => kept _ _ (before.dropped other member)⟩
  | advance sub c ok _ found advanced =>
    obtain ⟨-, rfl⟩ := connection_mem found
    exact advanced.regular before found
  | disconnect sub c found phase =>
    refine before.entered found rfl (fun _ => ?_) (by simp [phase, Phase.concluded])
      (runs_subset (List.Subset.refl _)) rfl rfl
    split <;> rfl
  | abandon sub c found phase =>
    exact before.entered found rfl (fun _ => rfl) (by simp [phase, Phase.concluded])
      (runs_subset (List.Subset.refl _)) rfl rfl
  | topicSubscribe sub c topic channel found phase named checked =>
    refine before.steady rfl (runs_subset (List.Subset.refl _)) (fun a member => ?_) dropped
    rcases List.mem_cons.mp member with rfl | old
    · obtain ⟨present, same⟩ := connection_mem found
      exact Or.inr ⟨c, present, same, by simp [phase, Phase.begun, Phase.stage]⟩
    · exact Or.inl old
  | advanceAdd a ok member => exact advanceAdd_regular before member ok
  | topicUnsubscribe sub c topic channel broker found phase named removed =>
    obtain ⟨entry, -, -, rfl⟩ := Broker.removeSubscription_ok removed
    exact before.steady rfl (runs_shutdown _ _) (fun _ => Or.inl) dropped
  | publish send reply channel checked =>
    refine before.steady rfl ?_ (fun _ => Or.inl) dropped
    dsimp only
    split
    · exact runs_subset (List.Subset.refl _)
    · exact runs_publish _ _
  | turn a broker turns => exact before.steady rfl (runs_turns turns) (fun _ => Or.inl) dropped

end Service

/-- What Redis is told to publish. -/
def Action.sent (config : ClientConfig) : Action → List (Message Unit)
  | .publish send reply =>
      match send.channel config with
      | .ok channel => if reply = .refused then [] else [⟨channel, send.event, ()⟩]
      | .error _ => []
  | _ => []

/-- The `subscribe` of a connection. -/
structure Serves (c : Connection) (call : Call) : Prop where
  sub : call.sub = c.sub
  stage : call.stage = c.phase.stage
  number : ∀ number connected todo, c.phase = .opening number connected todo → call.number = number

/-- The service has told Redis to publish this, and its broker is the one that the calls have
made. A failed `subscribe` drops the subscription at once, its handler when it returns. -/
structure Mirrors (sent : List (Message Unit)) (s : Service) (p : PubSub) : Prop where
  broker : p.broker.erase = s.broker.erase
  calls : List.Forall₂ Serves s.connections p.calls
  adding : p.adding = s.adding
  next : p.next = s.next
  published : p.published.map Message.erase = sent
  dropped : ∀ sub, sub ∈ p.broker.dropped ↔ sub ∈ s.broker.dropped ∨ s.InPhase (· = .failed) sub

namespace Mirrors
variable {config : ClientConfig} {json : AttributesJson} {s t : Service} {p : PubSub} {c : Connection}
  {sent : List (Message Unit)} {phase : Phase}

theorem initial : Mirrors [] .initial .initial := by
  refine ⟨rfl, .nil, rfl, rfl, rfl, fun sub => ?_⟩
  simp [PubSub.initial, Service.initial, Broker.empty, Service.InPhase]

theorem call_of (r : Mirrors sent s p) (found : s.connection sub = some c) :
    ∃ call, p.call sub = some call ∧ Serves c call :=
  forall₂_find? r.calls (fun _ _ serves => by rw [serves.sub]) found

theorem distinct (r : Mirrors sent s p) (regular : s.Regular) : Distinct Call.sub p.calls := by
  unfold Distinct
  rw [← forall₂_map_eq r.calls fun _ _ serves => serves.sub.symm]
  exact regular.distinct

/-- A connection goes on and so does its call. -/
theorem calls_entered (r : Mirrors sent s p) (regular : s.Regular)
    (called : p.call sub = some d)
    (number : ∀ number connected todo, phase = .opening number connected todo → d.number = number) :
    List.Forall₂ Serves (s.enter sub phase).connections (p.enter sub phase.stage).calls := by
  obtain ⟨present, named⟩ := PubSub.call_mem called
  refine forall₂_updateWhere r.calls (fun x y serves => by rw [serves.sub]) ?_
  intro x _ y inside serves hit
  have same : y.sub = sub := serves.sub.trans (by simpa using hit)
  cases (r.distinct regular).unique inside present (same.trans named.symm)
  exact ⟨serves.sub, rfl, number⟩

/-- A connection goes on after its call has returned. -/
theorem calls_kept (r : Mirrors sent s p) (regular : s.Regular)
    (found : s.connection sub = some c) (begun : c.phase.begun) (still : phase.begun) :
    List.Forall₂ Serves (s.enter sub phase).connections p.calls := by
  obtain ⟨member, same⟩ := Service.connection_mem found
  have kept : List.Forall₂ Serves (s.enter sub phase).connections
      (updateWhere (fun d => d.sub == sub) id p.calls) := by
    refine forall₂_updateWhere r.calls (fun x y serves => by rw [serves.sub]) ?_
    intro x inside y _ serves hit
    have named : x.sub = sub := by simpa using hit
    cases regular.distinct.unique inside member (named.trans same.symm)
    refine ⟨serves.sub, (serves.stage.trans begun).trans still.symm, ?_⟩
    rintro number connected todo rfl
    cases still
  simpa [updateWhere] using kept

/-- Only a `subscribe` that fails leaves more dropped at the broker than at the service. -/
theorem dropped_entered (r : Mirrors sent s p) (regular : s.Regular)
    (found : s.connection sub = some c) (going : c.phase ≠ .failed) (goes : phase ≠ .failed)
    (other : Uuid) : other ∈ p.broker.dropped ↔
      other ∈ s.broker.dropped ∨ (s.enter sub phase).InPhase (· = .failed) other := by
  rw [r.dropped, Service.inPhase_enter regular.distinct found]
  have absent : ¬ s.InPhase (· = .failed) sub := by
    rwa [Service.inPhase_iff regular.distinct found]
  refine or_congr_right ⟨fun failed => Or.inr ⟨?_, failed⟩, ?_⟩
  · rintro rfl
    exact absent failed
  · rintro (⟨-, failed⟩ | ⟨-, failed⟩)
    · exact absurd failed goes
    · exact failed

theorem dropped_failed (r : Mirrors sent s p) (regular : s.Regular)
    (found : s.connection sub = some c) (other : Uuid) :
    other ∈ sub :: p.broker.dropped ↔
      other ∈ s.broker.dropped ∨ (s.enter sub .failed).InPhase (· = .failed) other := by
  rw [List.mem_cons, r.dropped, Service.inPhase_enter regular.distinct found]
  by_cases same : other = sub
  · simp [same]
  · simp [same]

end Mirrors

/-- One step of the service, as at most one call of its broker. -/
def Matched (config : ClientConfig) (sent : List (Message Unit)) (a : Action) (t : Service)
    (p : PubSub) : Prop :=
  ∃ call q, run PubSub.step p (Option.toList call) = some q ∧ Mirrors (sent ++ a.sent config) t q ∧
    ∀ channel data, call = some (.publish channel data) →
      ∃ send reply, a = .publish send reply ∧ send.channel config = .ok channel

namespace Mirrors
variable {config : ClientConfig} {json : AttributesJson} {s t : Service} {p q : PubSub} {c : Connection}
  {sent : List (Message Unit)} {phase : Phase} {a : Action} {b : PubSub.Action}

theorem silent (r : Mirrors sent t p) (nothing : a.sent config = []) : Matched config sent a t p :=
  ⟨none, p, rfl, by rwa [nothing, List.append_nil], by simp⟩

theorem called (stepped : p.step b = some q) (other : ∀ channel data, b ≠ .publish channel data)
    (nothing : a.sent config = []) (r : Mirrors sent t q) : Matched config sent a t p := by
  refine ⟨some b, q, run_cons_iff.mpr ⟨q, stepped, rfl⟩, by rwa [nothing, List.append_nil], ?_⟩
  intro channel data same
  exact absurd (Option.some.inj same) (other channel data)

theorem advanced (r : Mirrors sent s p) (regular : s.Regular) (found : s.connection c.sub = some c)
    (h : s.advance config json c ok = some t) : Matched config sent (.advance c.sub ok) t p := by
  obtain ⟨d, called, serves⟩ := r.call_of found
  have stepped (ok : Bool) : p.step (.advance c.sub ok) = p.advance d ok := by
    simp [PubSub.step, called]
  have task {number connected todo} (phase : c.phase = .opening number connected todo) :
      d.task = ⟨c.sub, none, number⟩ := by
    rw [Call.task, serves.sub, serves.number _ _ _ phase]
  have named : d.sub = c.sub := serves.sub
  have opened {number connected todo} (phase : c.phase = .opening number connected todo) :
      d.stage = .opening connected todo := by
    rw [serves.stage, phase]
    rfl
  have ended (begun : c.phase.begun) : ∀ x ∈ p.calls, x.sub = c.sub → x.stage = .returned := by
    intro x member same
    obtain ⟨present, _⟩ := PubSub.call_mem called
    cases (r.distinct regular).unique member present (same.trans named.symm)
    exact serves.stage.trans begun
  have numbered {number connected todo connected' todo'}
      (phase : c.phase = .opening number connected todo) :
      ∀ number' up left, Phase.opening number connected' todo' = .opening number' up left →
        d.number = number' := by
    rintro _ _ _ ⟨⟩
    exact serves.number _ _ _ phase
  have spawned (number : Nat) (phase : c.phase = .opening number true []) :
      p.step (.advance c.sub true) = some ((p.withBroker
        (p.broker.start ⟨c.sub, none, number⟩)).enter c.sub .returned) := by
    simp [stepped, PubSub.advance, opened phase, task phase, named]
  cases Service.advance_advances h with
  | connected number todo phase =>
    have goes : p.step (.advance c.sub true) = some ((p.withBroker
        (p.broker.connect ⟨c.sub, none, number⟩)).enter c.sub (.opening true todo)) := by
      simp [stepped, PubSub.advance, opened phase, task phase, named]
    refine Mirrors.called goes (by simp) rfl ⟨?_, ?_, r.adding, r.next, r.published, ?_⟩
    · exact (Broker.connect_erase _ _).trans (r.broker ▸ (Broker.connect_erase _ _).symm)
    · exact r.calls_entered regular called (numbered phase)
    · exact r.dropped_entered regular found (by simp [phase]) (by simp)
  | listening number channel todo phase =>
    have goes : p.step (.advance c.sub true) = some ((p.withBroker
        (p.broker.listen ⟨c.sub, none, number⟩ channel)).enter c.sub (.opening true todo)) := by
      simp [stepped, PubSub.advance, opened phase, task phase, named]
    refine Mirrors.called goes (by simp) rfl ⟨?_, ?_, r.adding, r.next, r.published, ?_⟩
    · exact (Broker.listen_erase _ _ _).trans (r.broker ▸ (Broker.listen_erase _ _ _).symm)
    · exact r.calls_entered regular called (numbered phase)
    · exact r.dropped_entered regular found (by simp [phase]) (by simp)
  | unconnected number todo phase =>
    have goes : p.step (.advance c.sub false) = some ((p.withBroker
        (p.broker.drop c.sub)).enter c.sub .failed) := by
      simp [stepped, PubSub.advance, opened phase, named]
    refine Mirrors.called goes (by simp) rfl ⟨r.broker, ?_, r.adding, r.next, r.published, ?_⟩
    · exact r.calls_entered regular called (by simp)
    · exact r.dropped_failed regular found
  | unsubscribed number channel todo phase =>
    have goes : p.step (.advance c.sub false) = some ((p.withBroker
        ((p.broker.close ⟨c.sub, none, number⟩).drop c.sub)).enter c.sub .failed) := by
      simp [stepped, PubSub.advance, opened phase, task phase, named]
    refine Mirrors.called goes (by simp) rfl ⟨?_, ?_, r.adding, r.next, r.published, ?_⟩
    · have closed := Broker.close_erase p.broker ⟨c.sub, none, number⟩
      rw [r.broker, ← Broker.close_erase] at closed
      exact closed
    · exact r.calls_entered regular called (by simp)
    · exact r.dropped_failed regular found
  | registering number dev phase =>
    refine Mirrors.called (spawned number phase) (by simp) rfl
      ⟨?_, ?_, r.adding, r.next, r.published, ?_⟩
    · exact (Broker.start_erase _ _).trans (r.broker ▸ (Broker.start_erase _ _).symm)
    · exact r.calls_entered regular called (by simp)
    · exact r.dropped_entered regular found (by simp [phase]) (by simp)
  | plain number phase =>
    refine Mirrors.called (spawned number phase) (by simp) rfl
      ⟨?_, ?_, r.adding, r.next, r.published, ?_⟩
    · exact (Broker.start_erase _ _).trans (r.broker ▸ (Broker.start_erase _ _).symm)
    · exact r.calls_entered regular called (by simp)
    · exact r.dropped_entered regular found (by simp [phase]) (by simp)
  | stored phase =>
    refine Mirrors.silent ⟨r.broker, ?_, r.adding, r.next, r.published, ?_⟩ rfl
    · exact r.calls_kept regular found (by rw [phase]; rfl) rfl
    · exact r.dropped_entered regular found (by simp [phase]) (by simp)
  | deleted phase =>
    refine Mirrors.silent ⟨r.broker, ?_, r.adding, r.next, r.published, ?_⟩ rfl
    · exact r.calls_kept regular found (by rw [phase]; rfl) rfl
    · exact r.dropped_entered regular found (by simp [phase]) (by simp)
  | left phase =>
    have goes : p.step (.unsubscribe c.sub) =
        some (p.withBroker (p.broker.unsubscribe c.sub)) := by
      have free : ∀ a ∈ s.adding, a.task.sub ≠ c.sub := by
        simp only [Service.advance, phase] at h
        split at h
        · contradiction
        · rename_i idle
          simpa using idle
      have idle : ∀ x ∈ p.calls, x.sub = c.sub → x.stage.isOpening = false := fun x member same => by
        rw [ended (by rw [phase]; rfl) x member same]
        rfl
      simpa [PubSub.step, r.adding] using ⟨idle, free⟩
    refine Mirrors.called goes (by simp) rfl ⟨?_, ?_, r.adding, r.next, r.published, ?_⟩
    · exact (Broker.unsubscribe_erase _ _).trans (r.broker ▸ (Broker.unsubscribe_erase _ _).symm)
    · exact r.calls_kept regular found (by rw [phase]; rfl) rfl
    · intro other
      have kept : other ∈ p.broker.dropped ↔ other ∈ s.broker.dropped ∨
          (s.enter c.sub .closed).InPhase (· = .failed) other :=
        r.dropped_entered regular found (by simp [phase]) (by simp) other
      rw [← Broker.unsubscribe_dropped p.broker c.sub,
        ← Broker.unsubscribe_dropped s.broker c.sub] at kept
      exact kept

/-- The awaits of an `add_subscription` are those of the broker. -/
theorem added (r : Mirrors sent s p) (x : Adding) (ok : Bool) :
    Mirrors sent (s.advanceAdd x ok) (p.advanceAdd x ok) := by
  have others : p.others x = s.adding.filter (·.task ≠ x.task) := by
    rw [PubSub.others, r.adding]
  obtain ⟨task, channel, phase⟩ := x
  cases phase with
  | connecting =>
    cases ok with
    | true =>
      refine ⟨?_, r.calls, congrArg _ others, r.next, r.published, r.dropped⟩
      exact (Broker.connect_erase _ _).trans (r.broker ▸ (Broker.connect_erase _ _).symm)
    | false => exact ⟨r.broker, r.calls, others, r.next, r.published, r.dropped⟩
  | subscribing =>
    cases ok with
    | true =>
      refine ⟨?_, r.calls, congrArg _ others, r.next, r.published, r.dropped⟩
      exact (Broker.listen_erase _ _ _).trans (r.broker ▸ (Broker.listen_erase _ _ _).symm)
    | false =>
      refine ⟨?_, r.calls, others, r.next, r.published, r.dropped⟩
      exact (Broker.close_erase _ _).trans (r.broker ▸ (Broker.close_erase _ _).symm)
  | inserting =>
    have same := (Broker.finishAdd_erase p.broker channel task.sub task.number).trans
      (r.broker ▸ (Broker.finishAdd_erase s.broker channel task.sub task.number).symm)
    cases ok with
    | true => exact ⟨same, r.calls, others, r.next, r.published, r.dropped⟩
    | false => exact ⟨same, r.calls, others, r.next, r.published, r.dropped⟩

/-- The broker after a step that leaves alone whose receivers are gone. -/
theorem onBroker (r : Mirrors sent s p) {x : Broker Send} {y : Broker Nat} (same : y.erase = x.erase)
    (left : y.dropped = p.broker.dropped) (right : x.dropped = s.broker.dropped) :
    Mirrors sent (s.withBroker x) (p.withBroker y) := by
  refine ⟨same, r.calls, r.adding, r.next, r.published, fun sub => ?_⟩
  have kept := r.dropped sub
  rw [← left, ← right] at kept
  exact kept

/-- Nothing runs for a subscription that was never returned. -/
theorem heard (r : Mirrors sent s p) (regular : s.Regular) (running : l ∈ s.broker.listeners)
    (up : l.running = true) : l.id.sub ∈ p.broker.dropped ↔ l.id.sub ∈ s.broker.dropped := by
  rw [r.dropped, or_iff_left]
  rintro ⟨c, member, same, failed⟩
  obtain ⟨d, present, named, begun⟩ := regular.running l running up
  cases regular.distinct.unique member present (same.trans named.symm)
  rw [failed] at begun
  cases begun

/-- What one broker answers is what the other does. -/
theorem turned (r : Mirrors sent s p) {answer : Option (Broker Nat)} {x : Broker Send}
    (same : some x.erase = answer.map Broker.erase)
    (left : ∀ y, answer = some y → y.dropped = p.broker.dropped)
    (right : x.dropped = s.broker.dropped) :
    ∃ y, answer = some y ∧ Mirrors sent (s.withBroker x) (p.withBroker y) := by
  obtain ⟨y, answered, equal⟩ := Option.map_eq_some_iff.mp same.symm
  exact ⟨y, answered, r.onBroker equal (left y answered) right⟩

theorem delivered (r : Mirrors sent s p) (regular : s.Regular) (h : s.broker.deliver task = some x) :
    ∃ y, p.broker.deliver task = some y ∧ Mirrors sent (s.withBroker x) (p.withBroker y) := by
  obtain ⟨l, member, rfl, up⟩ := Broker.deliver_running h
  refine r.turned ?_ (fun y answered => Broker.deliver_dropped answered) (Broker.deliver_dropped h)
  have same := Broker.deliver_erase s.broker l.id
  rw [h, ← r.broker] at same
  rw [← Option.map_some, same, Broker.deliver_erase]
  simp only [r.heard regular member up]

theorem stopped (r : Mirrors sent s p) (h : s.broker.stop task = some x) :
    ∃ y, p.broker.stop task = some y ∧ Mirrors sent (s.withBroker x) (p.withBroker y) := by
  refine r.turned ?_ (fun y answered => Broker.stop_dropped answered) (Broker.stop_dropped h)
  rw [← Option.map_some, ← h, Broker.stop_erase, ← r.broker, Broker.stop_erase]

theorem streamEnded (r : Mirrors sent s p) (h : s.broker.endOfStream task = some x) :
    ∃ y, p.broker.endOfStream task = some y ∧ Mirrors sent (s.withBroker x) (p.withBroker y) := by
  refine r.turned ?_ (fun y answered => Broker.endOfStream_dropped answered)
    (Broker.endOfStream_dropped h)
  rw [← Option.map_some, ← h, Broker.endOfStream_erase, ← r.broker, Broker.endOfStream_erase]

theorem received (r : Mirrors sent s p) (h : s.broker.receive sub = some (message, x)) :
    ∃ y, ((p.broker.receive sub).map Prod.snd) = some y ∧
      Mirrors sent (s.withBroker x) (p.withBroker y) := by
  refine r.turned ?_ ?_ ?_
  · have same := Broker.receive_erase s.broker sub
    rw [h, Option.map_some, ← r.broker, ← Broker.receive_erase] at same
    rw [same, Option.map_map]
    rfl
  · intro y answered
    obtain ⟨⟨m, z⟩, found, rfl⟩ := Option.map_eq_some_iff.mp answered
    obtain ⟨rest, -, rfl⟩ := Broker.receive_ok found
    rfl
  · obtain ⟨rest, -, rfl⟩ := Broker.receive_ok h
    rfl

theorem owned (r : Mirrors sent s p) (regular : s.Regular) (found : s.connection sub = some c)
    (begun : c.phase.begun) (held : sub ∉ s.broker.dropped) : p.owned sub = true := by
  obtain ⟨d, called, serves⟩ := r.call_of found
  obtain ⟨present, same⟩ := PubSub.call_mem called
  have still : sub ∉ p.broker.dropped := by
    rw [r.dropped, not_or]
    refine ⟨held, fun failed => ?_⟩
    rw [(Service.inPhase_iff regular.distinct found).mp failed] at begun
    cases begun
  have returned := serves.stage.trans begun
  simp only [PubSub.owned, Bool.and_eq_true, List.any_eq_true, decide_eq_true_eq]
  exact ⟨⟨d, present, same, returned⟩, by simpa using still⟩

theorem connected (r : Mirrors sent s p)
    (h : s.step config json (.connect sub tenantId clientId device) = some t) :
    Matched config sent (.connect sub tenantId clientId device) t p := by
  cases checked : clientChannels config tenantId clientId device with
  | error e =>
    simp only [Service.step, checked] at h
    split at h
    · contradiction
    · cases h
      exact r.silent rfl
  | ok channels =>
    obtain ⟨absent, rfl⟩ := Service.step_connect h checked
    have fresh : ∀ x ∈ p.calls, x.sub ≠ sub := by
      intro x member same
      obtain ⟨c, present, serves⟩ := forall₂_mem r.calls.flip member
      exact Service.connection_fresh absent c present (serves.sub.symm.trans same)
    have goes : p.step (.subscribe sub channels) = some { p with
        broker := p.broker.register sub p.next
        calls := p.calls ++ [⟨sub, channels, p.next, .opening false channels⟩]
        next := p.next + 1 } := by
      have none_called : p.call sub = none := List.find?_eq_none.mpr (by simpa using fresh)
      simp [PubSub.step, none_called]
    refine Mirrors.called goes (by simp) rfl ⟨?_, ?_, r.adding, ?_, r.published, ?_⟩
    · exact (Broker.register_erase _ _ _).trans
        (r.broker ▸ r.next ▸ (Broker.register_erase _ _ _).symm)
    · refine List.rel_append r.calls (.cons ⟨rfl, rfl, ?_⟩ .nil)
      rintro _ _ _ ⟨⟩
      exact r.next
    · exact congrArg (· + 1) r.next
    · intro other
      refine (r.dropped other).trans (or_congr_right ?_)
      constructor
      · rintro ⟨c, member, failed⟩
        exact ⟨c, List.mem_append_left _ member, failed⟩
      · rintro ⟨c, member, same, failed⟩
        rcases List.mem_append.mp member with old | new
        · exact ⟨c, old, same, failed⟩
        · rw [List.mem_singleton.mp new] at failed
          cases failed

/-- A connection whose call has returned goes on without the broker. -/
theorem entered (r : Mirrors sent s p) (regular : s.Regular) (found : s.connection sub = some c)
    (subscribed : c.phase = .subscribed) (still : phase.begun) (goes : phase ≠ .failed)
    (nothing : a.sent config = []) : Matched config sent a (s.enter sub phase) p := by
  refine Mirrors.silent ⟨r.broker, ?_, r.adding, r.next, r.published, ?_⟩ nothing
  · exact r.calls_kept regular found (by rw [subscribed]; rfl) still
  · exact r.dropped_entered regular found (by simp [subscribed]) goes

theorem topicSubscribed (r : Mirrors sent s p)
    (h : s.step config json (.topicSubscribe sub topic) = some t) :
    Matched config sent (.topicSubscribe sub topic) t p := by
  obtain ⟨c, found, answered⟩ := Option.bind_eq_some_iff.mp h
  split at answered
  · split at answered
    · cases answered
      exact r.silent rfl
    · rename_i channel named
      have same : p.broker.checkAdd channel sub = s.broker.checkAdd channel sub := by
        rw [← Broker.checkAdd_erase, r.broker, Broker.checkAdd_erase]
      split at answered
      · cases answered
        exact r.silent rfl
      · rename_i checked
        cases answered
        rw [checked] at same
        have goes : p.step (.addSubscription channel sub) = some { p with
            adding := ⟨⟨sub, some channel, p.next⟩, channel, .connecting⟩ :: p.adding
            next := p.next + 1 } := by
          simp [PubSub.step, same]
        refine Mirrors.called goes (by simp) rfl ⟨r.broker, r.calls, ?_, ?_, r.published, r.dropped⟩
        · simp only [r.adding, r.next]
        · exact congrArg (· + 1) r.next
  · contradiction

theorem topicUnsubscribed (r : Mirrors sent s p)
    (h : s.step config json (.topicUnsubscribe sub topic) = some t) :
    Matched config sent (.topicUnsubscribe sub topic) t p := by
  obtain ⟨c, found, answered⟩ := Option.bind_eq_some_iff.mp h
  split at answered
  · split at answered
    · cases answered
      exact r.silent rfl
    · rename_i channel named
      split at answered
      · cases answered
        exact r.silent rfl
      · rename_i broker removed
        cases answered
        have same := Broker.removeSubscription_erase s.broker channel sub
        rw [removed, ← r.broker, Broker.removeSubscription_erase] at same
        cases withdrawn : p.broker.removeSubscription channel sub with
        | error e =>
          rw [withdrawn] at same
          cases same
        | ok y =>
          rw [withdrawn] at same
          have goes : p.step (.removeSubscription channel sub) = some (p.withBroker y) := by
            simp [PubSub.step, withdrawn]
          refine Mirrors.called goes (by simp) rfl (r.onBroker (Except.ok.inj same) ?_ ?_)
          · obtain ⟨entry, -, -, rfl⟩ := Broker.removeSubscription_ok withdrawn
            rfl
          · obtain ⟨entry, -, -, rfl⟩ := Broker.removeSubscription_ok removed
            rfl
  · contradiction

theorem publishes (r : Mirrors sent s p) (h : s.step config json (.publish send reply) = some t) :
    Matched config sent (.publish send reply) t p := by
  simp only [Service.step] at h
  split at h
  · rename_i e refused
    cases h
    exact r.silent (by simp [Action.sent, refused])
  · rename_i channel named
    cases h
    by_cases refused : reply = .refused
    · subst refused
      refine Mirrors.silent ⟨r.broker, r.calls, r.adding, r.next, r.published, r.dropped⟩ ?_
      simp [Action.sent, named]
    · have goes : p.step (.publish channel send.event) = some { p with
          broker := p.broker.publish ⟨channel, send.event, p.published.length⟩
          published := p.published ++ [⟨channel, send.event, p.published.length⟩] } := rfl
      refine ⟨some (.publish channel send.event), _, run_cons_iff.mpr ⟨_, goes, rfl⟩, ?_, ?_⟩
      · simp only [Action.sent, named, if_neg refused]
        refine ⟨?_, r.calls, r.adding, r.next, ?_, r.dropped⟩
        · exact (Broker.publish_erase _ _).trans
            (r.broker ▸ (Broker.publish_erase s.broker ⟨channel, send.event, send⟩).symm)
        · simp only [List.map_append, r.published]
          rfl
      · rintro _ _ ⟨⟩
        exact ⟨send, reply, rfl, named⟩

theorem receives (r : Mirrors sent s p) (regular : s.Regular)
    (h : s.step config json (.receive sub) = some t) : Matched config sent (.receive sub) t p := by
  obtain ⟨c, found, answered⟩ := Option.bind_eq_some_iff.mp h
  split at answered
  · rename_i phase
    obtain ⟨⟨message, x⟩, taken, rfl⟩ := Option.map_eq_some_iff.mp answered
    obtain ⟨y, received, next⟩ := r.received taken
    have held : sub ∉ s.broker.dropped := by
      intro gone
      have concluded := (Service.inPhase_iff regular.distinct found).mp (regular.dropped sub gone)
      rw [phase] at concluded
      exact concluded
    have owned := r.owned regular found (by rw [phase]; rfl) held
    have goes : p.step (.receive sub) = some (p.withBroker y) := by
      rw [PubSub.step, if_pos owned]
      obtain ⟨z, same, rfl⟩ := Option.map_eq_some_iff.mp received
      rw [same, Option.map_some]
    exact Mirrors.called goes (by simp) rfl next
  · contradiction

/-- The broker drops the receiver of a failed `subscribe` by itself. -/
theorem drops (r : Mirrors sent s p) (regular : s.Regular)
    (h : s.step config json (.drop sub) = some t) : Matched config sent (.drop sub) t p := by
  obtain ⟨concluded, rfl⟩ := Service.step_drop h
  by_cases gone : sub ∈ p.broker.dropped
  · refine Mirrors.silent ⟨r.broker, r.calls, r.adding, r.next, r.published, fun other => ?_⟩ rfl
    have kept := r.dropped other
    by_cases same : other = sub
    · subst same
      exact iff_of_true gone (Or.inl List.mem_cons_self)
    · rw [kept]
      exact or_congr_left ⟨List.mem_cons_of_mem _, fun member =>
        (List.mem_cons.mp member).resolve_left same⟩
  · have held : sub ∉ s.broker.dropped ∧ ¬ s.InPhase (· = .failed) sub := by
      rwa [r.dropped, not_or] at gone
    obtain ⟨c, found, ended⟩ := Service.inPhase_found regular.distinct concluded
    have begun : c.phase.begun := by
      have going : c.phase ≠ .failed := fun failed =>
        held.2 ((Service.inPhase_iff regular.distinct found).mpr failed)
      cases phase : c.phase with
      | closed | abandoned => rfl
      | failed => exact absurd phase going
      | _ =>
        rw [phase] at ended
        exact ended.elim
    have goes : p.step (.drop sub) = some (p.withBroker (p.broker.drop sub)) := by
      rw [PubSub.step, if_pos (r.owned regular found begun held.1)]
    refine Mirrors.called goes (by simp) rfl
      ⟨r.broker, r.calls, r.adding, r.next, r.published, fun other => ?_⟩
    have kept := r.dropped other
    change other ∈ sub :: p.broker.dropped ↔ other ∈ sub :: s.broker.dropped ∨ _
    rw [List.mem_cons, List.mem_cons, kept, or_assoc]
    rfl

/-- Each step of the service is one call of its broker, or none. -/
theorem step (r : Mirrors sent s p) (regular : s.Regular) (h : s.step config json a = some t) :
    Matched config sent a t p := by
  cases a with
  | connect sub tenantId clientId device => exact r.connected h
  | advance sub ok =>
    obtain ⟨c, found, advanced⟩ := Option.bind_eq_some_iff.mp h
    obtain ⟨-, rfl⟩ := Service.connection_mem found
    exact r.advanced regular found advanced
  | disconnect sub =>
    obtain ⟨c, found, entered⟩ := Option.bind_eq_some_iff.mp h
    split at entered
    · rename_i subscribed
      cases entered
      exact r.entered regular found subscribed (by split <;> rfl) (by split <;> simp) rfl
    · contradiction
  | abandon sub =>
    obtain ⟨c, found, entered⟩ := Option.bind_eq_some_iff.mp h
    split at entered
    · rename_i subscribed
      cases entered
      exact r.entered regular found subscribed rfl (by simp) rfl
    · contradiction
  | topicSubscribe sub topic => exact r.topicSubscribed h
  | advanceAdd task ok =>
    obtain ⟨x, found, rfl⟩ := Option.map_eq_some_iff.mp h
    have goes : p.step (.advanceAdd task ok) = some (p.advanceAdd x ok) := by
      simp [PubSub.step, r.adding, found]
    exact Mirrors.called goes (by simp) rfl (r.added x ok)
  | topicUnsubscribe sub topic => exact r.topicUnsubscribed h
  | publish send reply => exact r.publishes h
  | deliver task =>
    obtain ⟨x, answered, rfl⟩ := Option.map_eq_some_iff.mp h
    obtain ⟨y, found, next⟩ := r.delivered regular answered
    exact Mirrors.called (b := .deliver task) (by rw [PubSub.step, found, Option.map_some]) (by simp) rfl
      next
  | stop task =>
    obtain ⟨x, answered, rfl⟩ := Option.map_eq_some_iff.mp h
    obtain ⟨y, found, next⟩ := r.stopped answered
    exact Mirrors.called (b := .stop task) (by rw [PubSub.step, found, Option.map_some]) (by simp) rfl
      next
  | hangUp task =>
    cases h
    refine Mirrors.called (b := .hangUp task) rfl (by simp) rfl (r.onBroker ?_ rfl rfl)
    exact (Broker.hangUp_erase _ _).trans (r.broker ▸ (Broker.hangUp_erase _ _).symm)
  | endOfStream task =>
    obtain ⟨x, answered, rfl⟩ := Option.map_eq_some_iff.mp h
    obtain ⟨y, found, next⟩ := r.streamEnded answered
    exact Mirrors.called (b := .endOfStream task) (by rw [PubSub.step, found, Option.map_some])
      (by simp) rfl next
  | receive sub => exact r.receives regular h
  | drop sub => exact r.drops regular h

end Mirrors

namespace Server
variable {config : ClientConfig} {json : AttributesJson} {s t : Server}

def Action.sent (config : ClientConfig) : Action → List (Message Unit)
  | .background a => a.sent config
  | _ => []

/-- What Redis was told to publish along a run. -/
def sent (config : ClientConfig) (schedule : List Action) : List (Message Unit) :=
  schedule.flatMap (Action.sent config)

/-- A step of the server is one of its service, or leaves the service alone. Only publishers
publish. -/
theorem step_service (h : s.step config json a = some t) :
    t.service = s.service ∧ a.sent config = [] ∨
    ∃ b, s.service.step config json b = some t.service ∧ a.sent config = b.sent config ∧
      ∀ send reply, b = .publish send reply → a = .background (.publish send reply) := by
  cases a with
  | accept frontend sub tenantId clientId device =>
    obtain ⟨u, connected, rfl⟩ := Option.map_eq_some_iff.mp h
    refine Or.inr ⟨.connect sub tenantId clientId device, ?_, rfl, by simp⟩
    rw [connected]
    split <;> rfl
  | turn sub input =>
    obtain ⟨k, found, goes⟩ := Option.bind_eq_some_iff.mp h
    obtain ⟨⟨u, k'⟩, moved, rfl⟩ := Option.map_eq_some_iff.mp goes
    rcases (Handler.step_moves moved).service with same | ⟨b, calls, stepped⟩
    · exact Or.inl ⟨same, rfl⟩
    · refine Or.inr ⟨b, stepped, ?_, ?_⟩
      · cases calls <;> rfl
      · rintro send reply rfl
        cases calls
  | background b =>
    simp only [Server.step] at h
    split at h
    · obtain ⟨u, stepped, rfl⟩ := Option.map_eq_some_iff.mp h
      refine Or.inr ⟨b, stepped, rfl, ?_⟩
      rintro send reply rfl
      rfl
    · contradiction
  | drop sub =>
    obtain ⟨k, found, goes⟩ := Option.bind_eq_some_iff.mp h
    split at goes
    · obtain ⟨u, stepped, rfl⟩ := Option.map_eq_some_iff.mp goes
      exact Or.inr ⟨.drop sub, stepped, rfl, by simp⟩
    · contradiction

/-- When a message is published, no two tasks of one subscription are in for its channel. -/
def Apart (config : ClientConfig) (s : Server) : Action → Prop
  | .background (.publish send _) =>
      ∀ channel, send.channel config = .ok channel → s.service.broker.Alone channel
  | _ => True

/-- Where the service stands and where its broker does, after the same publishes. -/
def Brokered (config : ClientConfig) (schedule : List Action) (s : Server) (p : PubSub) : Prop :=
  Mirrors (sent config schedule) s.service p ∧ s.service.Regular

theorem step_brokered (before : Brokered config past s p) (h : s.step config json a = some t) :
    ∃ call q, run PubSub.step p (Option.toList call) = some q ∧ Brokered config (past ++ [a]) t q ∧
      ∀ channel data, call = some (.publish channel data) →
        ∃ send reply, a = .background (.publish send reply) ∧ send.channel config = .ok channel := by
  obtain ⟨refines, regular⟩ := before
  have more : sent config (past ++ [a]) = sent config past ++ a.sent config := by simp [sent]
  rcases step_service h with ⟨same, nothing⟩ | ⟨b, stepped, equal, only⟩
  · refine ⟨none, p, rfl, ⟨?_, same ▸ regular⟩, by simp⟩
    rw [more, nothing, List.append_nil, same]
    exact refines
  · obtain ⟨call, q, reached, next, published⟩ := refines.step regular stepped
    refine ⟨call, q, reached, ⟨?_, Service.step_regular stepped regular⟩, fun channel data same => ?_⟩
    · rw [more, equal]
      exact next
    · obtain ⟨send, reply, rfl, named⟩ := published channel data same
      exact ⟨send, reply, only send reply rfl, named⟩

theorem initial_brokered : Brokered config [] initial .initial :=
  ⟨Mirrors.initial, Service.initial_regular⟩

/-- The broker under a run in which every message is published into tasks that are apart. -/
theorem run_apart (h : run (step config json) initial schedule = some s)
    (meets : Meets (step config json) (Apart config) initial schedule) :
    ∃ calls p, run PubSub.step .initial calls = some p ∧ Meets PubSub.step PubSub.Apart .initial calls ∧
      Brokered config schedule s p := by
  refine run_matched (R := Brokered config) ?_ initial_brokered meets h
  intro past calls u p a v called before apart stepped
  obtain ⟨call, q, reached, next, published⟩ := step_brokered before stepped
  refine ⟨_, q, reached, ?_, next⟩
  cases call with
  | none => trivial
  | some b =>
    refine ⟨?_, fun _ _ => trivial⟩
    cases b with
    | publish channel data =>
      obtain ⟨send, reply, rfl, named⟩ := published channel data rfl
      refine (apart channel named).of_erase before.1.broker ?_ (PubSub.run_single called).distinct
      exact fun sub gone => (before.1.dropped sub).mpr (Or.inl gone)
    | _ => trivial

theorem run_brokered (h : run (step config json) initial schedule = some s) :
    ∃ calls p, run PubSub.step .initial calls = some p ∧ Brokered config schedule s p := by
  have any {S A : Type} (step : S → A → Option S) (s : S) (schedule : List A) :
      Meets step (fun _ _ => True) s schedule :=
    .of_forall (C := fun _ => True) (fun _ _ => trivial) s
  obtain ⟨calls, p, reached, -, brokered⟩ : ∃ calls p, run PubSub.step .initial calls = some p ∧
      Meets PubSub.step (fun _ _ => True) .initial calls ∧ Brokered config schedule s p := by
    refine run_matched (C := fun _ _ => True) ?_ initial_brokered (any _ _ _) h
    intro past calls u p a v _ before _ stepped
    obtain ⟨call, q, onward, next, -⟩ := step_brokered before stepped
    exact ⟨_, q, onward, any _ _ _, next⟩
  exact ⟨calls, p, reached, brokered⟩

/-- Every run of the server is a run of its broker: the calls that the front ends come down to, and
the steps of the tasks and of Redis in between, lead the broker to the same subscriptions, tasks,
queues and counter, with the same messages published. -/
theorem run_refines_broker (config : ClientConfig) (json : AttributesJson) (schedule : List Action)
    (s : Server) (h : run (step config json) initial schedule = some s) :
    ∃ calls p, run PubSub.step .initial calls = some p ∧
      Mirrors (sent config schedule) s.service p := by
  obtain ⟨calls, p, reached, refines, -⟩ := run_brokered h
  exact ⟨calls, p, reached, refines⟩

/-- A browser is sent an event. -/
def greeted : List Action :=
  visit true ++ [.background (.publish (.toClient ⟨"acme", "alice", "", [1]⟩) .ok),
    .background (.deliver ⟨0, none, 0⟩), .turn 0 .event, .turn 0 (.sent true)]

theorem greeted_refines_broker : ∃ s, run (step AppConfig.shipped.client plainJson) initial greeted =
    some s ∧ ∃ calls p, run PubSub.step .initial calls = some p ∧
      Mirrors [⟨"tenant:acme:client:alice", [1], ()⟩] s.service p := by
  obtain ⟨s, reached⟩ : ∃ s, run (step AppConfig.shipped.client plainJson) initial greeted = some s :=
    Option.isSome_iff_exists.mp (by decide +kernel)
  have told : sent AppConfig.shipped.client greeted = [⟨"tenant:acme:client:alice", [1], ()⟩] := by
    decide +kernel
  exact ⟨s, reached, told ▸ run_refines_broker _ _ _ s reached⟩

end Server
end Propeller
