import PaymentProcessing.Propeller.Census
import PaymentProcessing.Propeller.Threads

/-! `Threads` against `PubSub`: when the calls under way end, what they have yet to send, count and
spawn is done, and a run of `Threads` is one of `PubSub` that does it at the registry's change. -/
namespace Propeller
open Relational Transition

namespace PubSub

/-- An `add_subscription` gets to its insert. -/
def inserts (s : PubSub) : Action → Bool
  | .advanceAdd task _ => (s.adding.find? (·.task = task)).any (·.phase = .inserting)
  | _ => false

end PubSub

namespace Threads

/-- The task is spawned, or a call is about to. -/
def spawns (f : Threads) (task : TaskId) : Bool := f.inserted.any (·.task = task)

/-- Listeners that are not counted yet. -/
def uncounted (f : Threads) : Nat := f.inserted.countP (!·.counted)

/-- The state when the calls under way have ended. -/
def settle (f : Threads) : PubSub :=
  f.pubsub.forward f.spawns f.sending.contains f.uncounted

/-- What is under way behind the registry is no setup any more. -/
def Known (f : Threads) : Prop :=
  ∀ task, f.spawns task = true ∨ task ∈ f.sending →
    ¬ f.pubsub.tasks.Reserved task ∧ task.number < f.pubsub.next

section Settle
variable {f g : Threads}

theorem act_plain (f : Threads) (plain : a.plain = true) :
    f.act a = (f.pubsub.step a).map f.withPubSub := by
  cases a with
  | advanceAdd | removeSubscription | unsubscribe => cases plain
  | _ => rfl

theorem send_settle (sends : f.step (.send task) = some g) : g.settle = f.settle := by
  simp only [step] at sends
  split at sends <;> rename_i listed
  · cases sends
    have same : ([task] ++ f.sending.erase task).contains = f.sending.contains := by
      funext other
      exact (List.perm_cons_erase listed).contains_eq.symm
    simp only [settle, PubSub.forward, PubSub.withBroker, Broker.forward_shutdown,
      Broker.forward_told, same]
    rfl
  · contradiction

theorem count_settle (counts : f.step (.count task) = some g) : g.settle = f.settle := by
  simp only [step] at counts
  split at counts <;> rename_i listed
  · cases counts
    have perm := List.perm_cons_erase listed
    have uncounted := perm.countP_eq (!·.counted)
    have spawns : f.spawns = fun other =>
        (⟨task, true⟩ :: f.inserted.erase ⟨task, false⟩ : List Inserted).any (·.task = other) := by
      funext other
      rw [spawns, perm.any_eq]
      rfl
    simp only [List.countP_cons, Bool.not_false, if_true] at uncounted
    simp only [settle, PubSub.forward, PubSub.withBroker, Broker.countIn_forward, spawns,
      Threads.uncounted, uncounted]
    rfl
  · contradiction

theorem spawn_settle (spawned : f.step (.spawn task) = some g) : g.settle = f.settle := by
  simp only [step] at spawned
  split at spawned <;> rename_i listed
  · cases spawned
    have perm := List.perm_cons_erase listed
    have uncounted := perm.countP_eq (!·.counted)
    have spawns : f.spawns = fun other =>
        task = other || (f.inserted.erase ⟨task, true⟩).any (·.task = other) := by
      funext other
      rw [spawns, perm.any_eq, List.any_cons]
    simp only [List.countP_cons, Bool.not_true, Bool.false_eq_true, if_false] at uncounted
    simp only [settle, PubSub.forward, PubSub.withBroker, Broker.forward_start, Broker.forward_up,
      spawns, Threads.uncounted, uncounted]
    rfl
  · contradiction

theorem insert_settle {a : Adding} (topic : a.task.topic = some a.channel)
    (inserting : a.phase = .inserting) : (f.insert a).settle = f.settle.advanceAdd a ok := by
  have own : (⟨a.task.sub, some a.channel, a.task.number⟩ : TaskId) = a.task := by rw [← topic]
  have spawns : (f.insert a).spawns = fun other => a.task = other || f.spawns other := rfl
  have uncounted : (f.insert a).uncounted = f.uncounted + 1 := List.countP_cons_of_pos rfl
  have told : (f.insert a).sending =
    f.pubsub.broker.replaced a.channel a.task.sub ++ f.sending := rfl
  simp only [PubSub.advanceAdd, inserting, settle, PubSub.forward, PubSub.withBroker, spawns,
    uncounted, told, Broker.forward_finishAdd, own]
  rfl

theorem take_settle (f : Threads) (taken : List TaskId × Broker Nat) :
    (f.take taken).settle = f.settle.withBroker
      ((taken.2.forward f.spawns f.sending.contains f.uncounted).shutdown taken.1) := by
  simp only [settle, take, PubSub.forward, PubSub.withBroker, Broker.forward_told]
  rfl

theorem act_settle (known : f.Known) (topics : ∀ a ∈ f.pubsub.adding, a.task.topic = some a.channel)
    (acted : f.act a = some g) : f.settle.step a = some g.settle := by
  have fresh (x) (setup : f.pubsub.tasks.setups x) :
      f.spawns x.task = false ∧ f.sending.contains x.task = false := by
    have reserved : f.pubsub.tasks.Reserved x.task := ⟨x, setup, rfl⟩
    refine ⟨?_, ?_⟩
    · simpa using fun up => (known x.task (Or.inl up)).1 reserved
    · simpa using fun listed => (known x.task (Or.inr listed)).1 reserved
  cases a with
  | advanceAdd task ok =>
    obtain ⟨a, found, rfl⟩ := Option.map_eq_some_iff.mp acted
    have present : a ∈ f.pubsub.adding := List.mem_of_find?_eq_some found
    refine Option.map_eq_some_iff.mpr ⟨a, found, ?_⟩
    split <;> rename_i phase
    · exact (insert_settle (topics a present) phase).symm
    · refine PubSub.forward_advanceAdd (fun _ => ?_) phase
      exact Adding.setup_task a ▸ fresh a.setup (Or.inr ⟨a, present, rfl⟩)
  | removeSubscription channel sub =>
    have removal : f.settle.broker.removeSubscription channel sub =
        ((f.pubsub.broker.takeControl channel sub).map fun taken =>
          (taken.2.forward f.spawns f.sending.contains f.uncounted).shutdown taken.1) := by
      rw [Broker.removeSubscription_eq]
      exact Broker.forward_takeControl channel sub
    simp only [act] at acted
    simp only [PubSub.step, removal]
    cases taken : f.pubsub.broker.takeControl channel sub with
    | error text =>
      rw [taken] at acted
      cases acted
      rfl
    | ok taken' =>
      rw [taken] at acted
      cases acted
      rw [take_settle]
      rfl
  | unsubscribe sub =>
    have leaving : f.settle.broker.unsubscribe sub =
        ((f.pubsub.broker.takeEntry sub).map fun taken =>
          (taken.2.forward f.spawns f.sending.contains f.uncounted).shutdown taken.1).getD
            f.settle.broker := by
      rw [Broker.unsubscribe_eq, settle, PubSub.forward, PubSub.withBroker, Broker.forward_takeEntry,
        Option.map_map]
      rfl
    simp only [act] at acted
    split at acted <;> rename_i free
    · contradiction
    · cases acted
      refine (if_neg free).trans (congrArg some ?_)
      rw [leaving]
      cases f.pubsub.broker.takeEntry sub with
      | none => rfl
      | some taken => exact (take_settle f taken).symm
  | _ =>
    rw [act_plain f rfl] at acted
    obtain ⟨t, stepped, rfl⟩ := Option.map_eq_some_iff.mp acted
    exact PubSub.forward_step (fun x setup _ => fresh x setup) stepped rfl

end Settle

/-- The effects of an action of `PubSub` on the calls under way. -/
inductive Acts (f : Threads) : PubSub.Action → Threads → Prop where
  | through (a t) : f.pubsub.step a = some t → f.pubsub.inserts a = false →
      Acts f a (f.withPubSub t)
  | idle (a) : a.plain = false → Acts f a f
  | inserted (x ok) : x ∈ f.pubsub.adding → x.phase = .inserting →
      Acts f (.advanceAdd x.task ok) (f.insert x)
  | removed (channel sub taken) : f.pubsub.broker.takeControl channel sub = .ok taken →
      Acts f (.removeSubscription channel sub) (f.take taken)
  | left (sub taken) : (∀ c ∈ f.pubsub.calls, c.sub = sub → c.stage.isOpening = false) →
      f.pubsub.broker.takeEntry sub = some taken → Acts f (.unsubscribe sub) (f.take taken)

variable {f g : Threads}

section Inversion

theorem act_acts (acted : f.act a = some g) : Acts f a g := by
  cases a with
  | advanceAdd task ok =>
    obtain ⟨x, found, rfl⟩ := Option.map_eq_some_iff.mp acted
    have own : x.task = task := by simpa using List.find?_some found
    split <;> rename_i phase
    · exact own ▸ .inserted x ok (List.mem_of_find?_eq_some found) phase
    · refine .through _ _ (Option.map_eq_some_iff.mpr ⟨x, found, rfl⟩) ?_
      simp [PubSub.inserts, found, phase]
  | removeSubscription channel sub =>
    simp only [act] at acted
    split at acted
    · cases acted
      exact .idle _ rfl
    · rename_i taken found
      cases acted
      exact .removed channel sub taken found
  | unsubscribe sub =>
    simp only [act] at acted
    split at acted <;> rename_i idle
    · contradiction
    · cases acted
      simp only [Bool.or_eq_true, List.any_eq_true, decide_eq_true_eq, not_or, not_exists,
        not_and, Bool.not_eq_true] at idle
      cases found : f.pubsub.broker.takeEntry sub with
      | none => exact .idle _ rfl
      | some taken => exact .left sub taken idle.1 found
  | _ =>
    rw [act_plain f rfl] at acted
    obtain ⟨t, stepped, rfl⟩ := Option.map_eq_some_iff.mp acted
    exact .through _ t stepped rfl

theorem takeControl_ok {b : Broker Nat} {taken : List TaskId × Broker Nat}
    (ok : b.takeControl channel sub = .ok taken) :
    (∃ entry ∈ b.subscriptions, taken.1 = Broker.ActiveSubscription.topicTasks entry channel) ∧
      taken.2.listeners = b.listeners ∧ taken.2.activeTopicListeners = b.activeTopicListeners := by
  unfold Broker.takeControl at ok
  split at ok
  · contradiction
  · rename_i entry found
    split at ok
    · cases ok
      exact ⟨⟨entry, List.mem_of_find?_eq_some found, rfl⟩, rfl, rfl⟩
    · contradiction

theorem takeEntry_some {b : Broker Nat} {taken : List TaskId × Broker Nat}
    (found : b.takeEntry sub = some taken) :
    (∃ entry ∈ b.subscriptions, entry.id = sub ∧ taken.1 = ⟨sub, none, entry.control⟩ ::
      entry.topicControls.map fun control => ⟨sub, some control.1, control.2⟩) ∧
      taken.2.listeners = b.listeners ∧ taken.2.activeTopicListeners = b.activeTopicListeners := by
  obtain ⟨entry, first, rfl⟩ := Option.map_eq_some_iff.mp found
  refine ⟨⟨entry, List.mem_of_find?_eq_some first, ?_, rfl⟩, rfl, rfl⟩
  simpa using List.find?_some first

end Inversion

section Known

/-- What is claimed is on its way no more. -/
theorem claimed_known (tidy : f.settle.Tidy) (claimed : (task, channel) ∈ f.pubsub.claims) :
    ¬ f.pubsub.tasks.Reserved task ∧ task.number < f.pubsub.next :=
  ⟨fun reserved => tidy.sane.unclaimed task channel reserved claimed,
    tidy.sane.claims_lt task channel claimed⟩

/-- A base task is on its way only while its `subscribe` is. -/
theorem base_known (tidy : f.settle.Tidy)
    (idle : ∀ c ∈ f.pubsub.calls, c.sub = sub → c.stage.isOpening = false) :
    ¬ f.pubsub.tasks.Reserved ⟨sub, none, number⟩ := by
  rintro ⟨x, ⟨c, member, setup⟩ | ⟨a, member, rfl⟩, own⟩
  · have same := (Call.setup_task setup).1
    have ended := idle c member (congrArg TaskId.sub (same.symm.trans own))
    cases stage : c.stage with
    | opening connected todo => simp [stage, CallStage.isOpening] at ended
    | returned | failed => simp [Call.setup, stage] at setup
  · have topic := tidy.topics a member
    rw [Adding.setup_task] at own
    rw [own] at topic
    cases topic

theorem known_after (task : TaskId) (tidy : f.settle.Tidy) (stepped : f.settle.step a = some g.settle)
    (before : ¬ f.pubsub.tasks.Reserved task ∧ task.number < f.pubsub.next) :
    ¬ g.pubsub.tasks.Reserved task ∧ task.number < g.pubsub.next := by
  refine ⟨fun reserved => ?_, ?_⟩
  · rcases PubSub.step_reserved tidy stepped reserved with old | new
    · exact before.1 old
    · have next : task.number = f.pubsub.next := new
      exact absurd before.2 (by omega)
  · have next := PubSub.step_next stepped
    exact Nat.lt_of_lt_of_le before.2 next

theorem Known.act (known : f.Known) (tidy : f.settle.Tidy)
    (controls : ∀ entry ∈ f.pubsub.broker.subscriptions, entry.control < f.pubsub.next)
    (acts : Acts f a g) (stepped : f.settle.step a = some g.settle) : g.Known := by
  intro task under
  have after := known_after task tidy stepped
  have stays {sending : List TaskId} (under : f.spawns task = true ∨ task ∈ sending ++ f.sending)
      (new : task ∈ sending → ¬ f.pubsub.tasks.Reserved task ∧ task.number < f.pubsub.next) :
      ¬ g.pubsub.tasks.Reserved task ∧ task.number < g.pubsub.next := by
    refine after ?_
    rcases under with up | listed
    · exact known task (Or.inl up)
    · exact (List.mem_append.mp listed).elim new fun old => known task (Or.inr old)
  cases acts with
  | through | idle => exact after (known task under)
  | inserted x ok present phase =>
    have own : f.settle.tasks.Reserved x.task := PubSub.reserved_adding present
    rcases under with up | listed
    · rcases Bool.or_eq_true_iff.mp up with new | old
      · obtain rfl : x.task = task := by simpa using new
        refine ⟨?_, tidy.sane.reserved_lt _ own⟩
        rintro ⟨y, setup, same⟩
        exact (PubSub.others_setups (t := f.settle) tidy present rfl setup).2 same
      · exact after (known task (Or.inl old))
    · refine stays (Or.inr listed) fun replaced => ?_
      exact claimed_known tidy (PubSub.replaced_claimed replaced).1
  | removed channel sub taken found =>
    refine stays under fun listed => ?_
    obtain ⟨⟨entry, registered, same⟩, -⟩ := takeControl_ok found
    rw [same] at listed
    obtain ⟨number, inside, rfl⟩ := PubSub.mem_topicTasks.mp listed
    exact claimed_known tidy (List.mem_append_right _
      (PubSub.mem_topicClaims.mpr ⟨entry, registered, number, inside, rfl⟩))
  | left sub taken idle found =>
    refine stays under fun listed => ?_
    obtain ⟨⟨entry, registered, named, same⟩, -⟩ := takeEntry_some found
    rw [same] at listed
    rcases List.mem_cons.mp listed with rfl | topic
    · exact ⟨base_known tidy idle, controls entry registered⟩
    · obtain ⟨⟨channel, number⟩, inside, rfl⟩ := List.mem_map.mp topic
      exact claimed_known tidy (List.mem_append_right _ (PubSub.mem_topicClaims.mpr
        ⟨entry, registered, number, inside, by rw [named]⟩))

theorem Known.fewer (known : f.Known) (same : g.settle = f.settle)
    (inserted : ∀ x ∈ g.inserted, ∃ y ∈ f.inserted, y.task = x.task)
    (sending : g.sending ⊆ f.sending) : g.Known := by
  have tasks : g.settle.tasks = f.settle.tasks := congrArg PubSub.tasks same
  have next : g.settle.next = f.settle.next := congrArg PubSub.next same
  intro task under
  have before : f.spawns task = true ∨ task ∈ f.sending := by
    refine under.imp (fun up => ?_) fun listed => sending listed
    obtain ⟨x, member, same⟩ := List.any_eq_true.mp up
    obtain ⟨y, present, equal⟩ := inserted x member
    exact List.any_eq_true.mpr ⟨y, present, by simpa [equal] using same⟩
  change ¬ g.settle.tasks.Reserved task ∧ task.number < g.settle.next
  rw [tasks, next]
  exact known task before

end Known

/-- The registry's side of an action. -/
def Action.registry : Action → Option PubSub.Action
  | .act a => some a
  | .send _ | .count _ | .spawn _ => none

/-- What is under way fits the state it leads to. -/
structure Orderly (f : Threads) : Prop where
  tidy : f.settle.Tidy
  single : f.settle.Single
  known : f.Known
  controls : ∀ entry ∈ f.settle.broker.subscriptions, entry.control < f.settle.next

section Orderly

theorem initial_orderly : initial.Orderly := by
  have none : initial.settle = PubSub.initial := rfl
  refine ⟨none ▸ PubSub.initial_tidy, none ▸ PubSub.initial_single, fun task under => ?_, ?_⟩
  · simp [initial, spawns] at under
  · simp [none, PubSub.initial, Broker.empty]

theorem Orderly.step (before : f.Orderly) (stepped : f.step a = some g) : g.Orderly := by
  have behind (same : g.settle = f.settle)
      (inserted : ∀ x ∈ g.inserted, ∃ y ∈ f.inserted, y.task = x.task)
      (sending : g.sending ⊆ f.sending) : g.Orderly :=
    ⟨same ▸ before.tidy, same ▸ before.single, before.known.fewer same inserted sending,
      same ▸ before.controls⟩
  cases a with
  | act a =>
    have settled := act_settle before.known before.tidy.topics stepped
    have moves := PubSub.step_moves settled
    exact ⟨(moves.zombies before.tidy).1, moves.single before.tidy before.single,
      before.known.act before.tidy before.controls (act_acts stepped) settled,
      PubSub.step_controls settled before.controls⟩
  | send task =>
    have same := send_settle stepped
    simp only [Threads.step] at stepped
    split at stepped
    · cases stepped
      exact behind same (fun x member => ⟨x, member, rfl⟩) List.erase_subset
    · contradiction
  | count task =>
    have same := count_settle stepped
    simp only [Threads.step] at stepped
    split at stepped <;> rename_i listed
    · cases stepped
      refine behind same (fun x member => ?_) (List.Subset.refl _)
      rcases List.mem_cons.mp member with rfl | old
      · exact ⟨⟨task, false⟩, listed, rfl⟩
      · exact ⟨x, List.mem_of_mem_erase old, rfl⟩
    · contradiction
  | spawn task =>
    have same := spawn_settle stepped
    simp only [Threads.step] at stepped
    split at stepped
    · cases stepped
      exact behind same (fun x member => ⟨x, List.mem_of_mem_erase member, rfl⟩) (List.Subset.refl _)
    · contradiction

/-- An action is one of `PubSub` where it changes the registry, and changes nothing elsewhere. -/
theorem Orderly.step_settle (before : f.Orderly) (stepped : f.step a = some g) :
    run PubSub.step f.settle a.registry.toList = some g.settle := by
  cases a with
  | act a =>
    have settled := act_settle before.known before.tidy.topics stepped
    exact run_cons_iff.mpr ⟨g.settle, settled, rfl⟩
  | send task => exact congrArg some (send_settle stepped).symm
  | count task => exact congrArg some (count_settle stepped).symm
  | spawn task => exact congrArg some (spawn_settle stepped).symm

/-- What the calls do after their change of the registry may as well happen at the change. -/
theorem run_settle (h : run step initial schedule = some f) :
    run PubSub.step .initial (schedule.filterMap Action.registry) = some f.settle := by
  refine run_simulates settle Action.registry (I := Orderly) ?_ ?_ initial_orderly h
  · intro f a g before stepped
    exact before.step stepped
  · intro f a g before stepped
    exact before.step_settle stepped

theorem settle_eq (inserted : f.inserted = []) (sending : f.sending = []) : f.settle = f.pubsub := by
  have same (l : Listener Nat) : ({ l with
      running := l.running || f.spawns l.id
      stopping := l.stopping || f.sending.contains l.id } : Listener Nat) = l := by
    simp [spawns, inserted, sending]
  have none : f.uncounted = 0 := by simp [uncounted, inserted]
  simp only [settle, PubSub.forward, Broker.forward, same, List.map_id', none, PubSub.withBroker]
  simp

end Orderly
end Threads
end Propeller
