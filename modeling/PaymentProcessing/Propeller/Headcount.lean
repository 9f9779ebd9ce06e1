import PaymentProcessing.Propeller.Settling

/-! `active_topic_listeners`: raised outside the lock by `add_subscription`, lowered by each topic
task as it returns, and compared with the registry. -/
namespace Propeller
open Relational Transition

/-- A task that goes on leaves the counter alone. -/
theorem Broker.deliver_counter {α : Type} {b b' : Broker α} (h : b.deliver task = some b')
    (owned : task.sub ∉ b.dropped) : b'.activeTopicListeners = b.activeTopicListeners := by
  unfold Broker.deliver at h
  split at h
  · split at h <;> rename_i gone
    · exact absurd (by simpa using gone) owned
    · cases h
      rfl
  · contradiction

namespace PubSub
variable {s t : PubSub}

/-- The task of a topic returns and counts itself out. -/
def countsOut (s : PubSub) : Action → Bool
  | .stop task | .endOfStream task => task.topic.isSome
  | .deliver task => task.topic.isSome && s.broker.dropped.contains task.sub
  | _ => false

theorem countsOut_plain (changes : a.plain = false) : s.countsOut a = false := by
  cases a with
  | advanceAdd | removeSubscription | unsubscribe => rfl
  | _ => cases changes

section Counts

theorem runningTopics_congr {f : Listener Nat → Listener Nat}
    (listeners : t.broker.listeners = s.broker.listeners.map f)
    (same : ∀ l ∈ s.broker.listeners, (f l).id = l.id ∧
      (l.id.topic.isSome = true → (f l).running = l.running)) :
    t.runningTopics = s.runningTopics := by
  unfold runningTopics
  rw [listeners, List.countP_map]
  refine List.countP_congr fun l member => ?_
  obtain ⟨id, running⟩ := same l member
  cases topic : l.id.topic.isSome with
  | true => simp [id, topic, running topic]
  | false => simp [id, topic]

theorem runningTopics_update {hit : Listener Nat → Bool} {set : Listener Nat → Listener Nat}
    (listeners : t.broker.listeners = updateWhere hit set s.broker.listeners)
    (same : ∀ l, (set l).id = l.id ∧ (set l).running = l.running) :
    t.runningTopics = s.runningTopics := by
  refine runningTopics_congr listeners fun l _ => ?_
  split
  · exact ⟨(same l).1, fun _ => (same l).2⟩
  · exact ⟨rfl, fun _ => rfl⟩

/-- Listeners that are closed before their task is spawned do not count. -/
theorem runningTopics_close (task : TaskId)
    (listeners : t.broker.listeners = (s.broker.close task).listeners)
    (idle : ∀ l ∈ s.broker.listeners, l.id = task → l.running = false) :
    t.runningTopics = s.runningTopics := by
  unfold runningTopics
  rw [listeners, Broker.close, List.countP_filter]
  refine List.countP_congr fun l member => ?_
  by_cases same : l.id = task
  · simp [idle l member same]
  · simp [same]

theorem finishes_counts {b : Broker Nat} (single : s.Single)
    (finishes : Broker.Finishes s.broker task l b) :
    (s.withBroker b).runningTopics + (if task.topic.isSome then 1 else 0) = s.runningTopics ∧
      b.activeTopicListeners =
        s.broker.activeTopicListeners - (if task.topic.isSome then 1 else 0) := by
  refine ⟨?_, ?_⟩
  · have others := countP_others single.distinct finishes.member
      fun l => l.running && l.id.topic.isSome
    rw [finishes.id, finishes.running, Bool.true_and] at others
    rw [finishes.state]
    exact others
  · rw [finishes.state, Broker.finish]
    cases task.topic.isSome with
    | true => rfl
    | false => simp

theorem runningTopics_connect (b : Broker Nat) (task : TaskId) (broker : s.broker = b)
    (connected : t.broker = b.connect task) : t.runningTopics = s.runningTopics := by
  unfold runningTopics
  rw [connected, broker, Broker.connect, List.countP_append]
  simp

theorem Adds.counts (h : Adds s a t) (tidy : s.Tidy) (present : a ∈ s.adding)
    (early : a.phase ≠ .inserting) : t.runningTopics = s.runningTopics ∧
      t.broker.activeTopicListeners = s.broker.activeTopicListeners := by
  cases h with
  | connected => exact ⟨runningTopics_connect s.broker a.task rfl rfl, rfl⟩
  | unconnected => exact ⟨rfl, rfl⟩
  | listening => exact ⟨runningTopics_update rfl fun _ => ⟨rfl, rfl⟩, rfl⟩
  | unsubscribed =>
    refine ⟨runningTopics_close a.task rfl fun l member same => ?_, rfl⟩
    exact (tidy.sane.waiting l member (same ▸ reserved_adding present)).1
  | inserted phase => exact absurd phase early

/-- A step counts a task out exactly when the counter goes down, and spawns no topic's task but
behind an insert. -/
theorem step_runningTopics (tidy : s.Tidy) (single : s.Single) (stepped : s.step a = some t)
    (early : s.inserts a = false) :
    t.runningTopics + (if s.countsOut a then 1 else 0) = s.runningTopics ∧
      t.broker.activeTopicListeners =
        s.broker.activeTopicListeners - (if s.countsOut a then 1 else 0) := by
  have still (none : s.countsOut a = false) (running : t.runningTopics = s.runningTopics)
      (counter : t.broker.activeTopicListeners = s.broker.activeTopicListeners) :
      t.runningTopics + (if s.countsOut a then 1 else 0) = s.runningTopics ∧
        t.broker.activeTopicListeners =
          s.broker.activeTopicListeners - (if s.countsOut a then 1 else 0) := by
    simp [none, running, counter]
  have moves := step_moves stepped
  cases moves with
  | unadded | unremoved | subscribe | addSubscription => exact still rfl rfl rfl
  | publish channel data =>
    refine still rfl (runningTopics_congr (f := Broker.offer _) rfl fun l _ => ?_) rfl
    exact ⟨Broker.offer_id _ l, fun _ => (offer_flags _ l).1⟩
  | advance c ok _ found advanced =>
    cases advanced with
    | connected todo stage => exact still rfl (runningTopics_connect s.broker c.task rfl rfl) rfl
    | unconnected => exact still rfl rfl rfl
    | listening => exact still rfl (runningTopics_update rfl fun _ => ⟨rfl, rfl⟩) rfl
    | unsubscribed channel todo stage =>
      refine still rfl (runningTopics_close c.task rfl fun l member same => ?_) rfl
      exact (tidy.sane.waiting l member (same ▸ reserved_call found stage)).1
    | spawned ok stage =>
      -- the base task has no topic
      refine still rfl (runningTopics_congr rfl fun l member => ?_) rfl
      split <;> rename_i hit
      · have base : l.id.topic = none := by
          rw [show l.id = c.task by simpa using hit]
          rfl
        exact ⟨rfl, fun topic => by simp [base] at topic⟩
      · exact ⟨rfl, fun _ => rfl⟩
  | advanceAdd a ok _ present =>
    obtain ⟨x, found, equal⟩ := Option.map_eq_some_iff.mp stepped
    have adds := advanceAdd_adds s x ok
    rw [equal] at adds
    obtain ⟨running, counter⟩ := adds.counts tidy (List.mem_of_find?_eq_some found)
      (by simpa [inserts, found] using early)
    exact still rfl running counter
  | removeSubscription channel sub b removed =>
    obtain ⟨entry, -, -, rfl⟩ := Broker.removeSubscription_ok removed
    exact still rfl (runningTopics_update rfl fun _ => ⟨rfl, rfl⟩) rfl
  | unsubscribe sub =>
    refine still rfl ?_ ?_
    · simp only [Broker.unsubscribe]
      split
      · rfl
      · exact runningTopics_update rfl fun _ => ⟨rfl, rfl⟩
    · simp only [withBroker, Broker.unsubscribe]
      split
      · rfl
      · rfl
  | turn a b turns =>
    cases turns with
    | deliver task _ delivered =>
      rcases Broker.deliver_cases delivered with ⟨gone, l, finishes⟩ | ⟨l, message, rest, delivers⟩
      · have out : s.countsOut (.deliver task) = task.topic.isSome := by
          simp [countsOut, gone]
        rw [out]
        exact finishes_counts single finishes
      · have counter := Broker.deliver_counter delivered delivers.owned
        refine still (by simp [countsOut, delivers.owned]) ?_ counter
        refine runningTopics_congr delivers.listeners fun l _ => ⟨Broker.took_id task l, fun _ => ?_⟩
        unfold Broker.took
        split
        · rfl
        · rfl
    | stop task _ stopped =>
      obtain ⟨l, finishes, -⟩ := Broker.stop_finishes stopped
      exact finishes_counts single finishes
    | endOfStream task _ ended =>
      obtain ⟨l, finishes⟩ := Broker.endOfStream_finishes ended
      exact finishes_counts single finishes
    | hangUp => exact still rfl (runningTopics_update rfl fun _ => ⟨rfl, rfl⟩) rfl
    | receive sub message _ received =>
      obtain ⟨rest, -, rfl⟩ := Broker.receive_ok received
      exact still rfl rfl rfl
    | drop sub => exact still rfl rfl rfl

end Counts
end PubSub

namespace Threads
variable {f g : Threads}

/-- `PubSub.Upheld` in the calls that are broken up. -/
def Upholds (f : Threads) : Action → Prop
  | .act a => f.pubsub.Upheld a
  | _ => True

instance (f : Threads) (a : Action) : Decidable (f.Upholds a) := by
  unfold Upholds
  split <;> infer_instance

/-- The counter as a number, by the `fetch_add`s and `fetch_sub`s so far: none once it was to go
below zero. -/
def noteCounter (f : Threads) : Action → Option Nat → Option Nat
  | .count _, tally => tally.map (· + 1)
  | .act a, tally =>
      if f.pubsub.countsOut a then tally.bind fun n => if n = 0 then none else some (n - 1) else tally
  | _, tally => tally

/-- No call is in progress and no stopped listener is still running. -/
structure Quiescent (f : Threads) : Prop where
  calls : ∀ c ∈ f.pubsub.calls, c.stage.isOpening = false
  adding : f.pubsub.adding = []
  inserted : f.inserted = []
  sending : f.sending = []
  still : ∀ l ∈ f.pubsub.broker.listeners, l.running = true → l.stopping = false

instance (f : Threads) : Decidable f.Quiescent :=
  decidable_of_iff ((∀ c ∈ f.pubsub.calls, c.stage.isOpening = false) ∧ f.pubsub.adding = [] ∧
    f.inserted = [] ∧ f.sending = [] ∧
    ∀ l ∈ f.pubsub.broker.listeners, l.running = true → l.stopping = false)
    ⟨fun ⟨calls, adding, inserted, sending, still⟩ => ⟨calls, adding, inserted, sending, still⟩,
      fun ⟨calls, adding, inserted, sending, still⟩ => ⟨calls, adding, inserted, sending, still⟩⟩

/-- Listeners that the counter counts. -/
def counted (f : Threads) : Nat := f.pubsub.runningTopics + f.inserted.countP (·.counted)

/-- A task that is inserted has a connection of its own and is not spawned yet. -/
structure Poised (f : Threads) : Prop where
  distinct : Distinct Inserted.task f.inserted
  waiting : ∀ x ∈ f.inserted, x.task.topic.isSome = true ∧
    ∃ l ∈ f.pubsub.broker.listeners, l.id = x.task ∧ l.running = false
  counter : f.pubsub.broker.activeTopicListeners = BitVec.ofNat 64 f.counted

section Poised

theorem waiting_through (known : f.Known) (tidy : f.pubsub.Tidy) (single : f.pubsub.Single)
    (stepped : f.pubsub.step a = some t) (inserted : x ∈ f.inserted) (topic : x.task.topic.isSome = true)
    (member : l ∈ f.pubsub.broker.listeners) (own : l.id = x.task) (idle : l.running = false) :
    ∃ l' ∈ t.broker.listeners, l'.id = x.task ∧ l'.running = false := by
  have free : ¬ f.pubsub.tasks.Reserved l.id := by
    rw [own]
    exact (known x.task (Or.inl (List.any_eq_true.mpr ⟨x, inserted, by simp⟩))).1
  rcases (PubSub.step_fates tidy single stepped).forward l member with ⟨l', present, goes⟩ | leaves
  · refine ⟨l', present, goes.id.trans own, ?_⟩
    by_contra running
    rcases goes.started (by simpa using running) with before | spawns
    · exact absurd before (by simp [idle])
    · cases spawns with
      | base _ none => simp [← own, none] at topic
      | topic y _ adding _ same => exact free (same ▸ PubSub.reserved_adding adding)
  · cases leaves with
    | closed reserved => exact absurd reserved free
    | stopped _ running | hungUp _ running | unheard _ running =>
      exact absurd running (by simp [idle])

theorem Poised.through (poised : f.Poised) (known : f.Known) (tidy : f.pubsub.Tidy)
    (single : f.pubsub.Single) (stepped : f.pubsub.step a = some t)
    (early : f.pubsub.inserts a = false) :
    (f.withPubSub t).Poised ∧
      (f.withPubSub t).counted + (if f.pubsub.countsOut a then 1 else 0) = f.counted := by
  obtain ⟨running, counter⟩ := PubSub.step_runningTopics tidy single stepped early
  have counts : (f.withPubSub t).counted + (if f.pubsub.countsOut a then 1 else 0) = f.counted := by
    simp only [counted, withPubSub]
    omega
  refine ⟨⟨poised.distinct, fun x member => ?_, ?_⟩, counts⟩
  · obtain ⟨topic, l, present, own, idle⟩ := poised.waiting x member
    exact ⟨topic, waiting_through known tidy single stepped member topic present own idle⟩
  · change t.broker.activeTopicListeners = _
    rw [counter, poised.counter, ← counts]
    split
    · rw [BitVec.ofNat_add]
      exact BitVec.add_sub_cancel _ _
    · simp

/-- Controls are taken out of the registry. -/
theorem Poised.take (poised : f.Poised) {taken : List TaskId × Broker Nat}
    (listeners : taken.2.listeners = f.pubsub.broker.listeners)
    (counter : taken.2.activeTopicListeners = f.pubsub.broker.activeTopicListeners) :
    (f.take taken).Poised ∧ (f.take taken).counted = f.counted := by
  have counts : (f.take taken).counted = f.counted := by
    simp only [counted, PubSub.runningTopics, Threads.take, PubSub.withBroker, listeners]
  refine ⟨⟨poised.distinct, fun x member => ?_, ?_⟩, counts⟩
  · obtain ⟨topic, l, present, own, idle⟩ := poised.waiting x member
    exact ⟨topic, l, listeners ▸ present, own, idle⟩
  · rw [counts]
    exact counter.trans poised.counter

theorem Poised.insert (poised : f.Poised) (known : f.Known) (tidy : f.pubsub.Tidy)
    (present : x ∈ f.pubsub.adding) (phase : x.phase = .inserting) :
    (f.insert x).Poised ∧ (f.insert x).counted = f.counted := by
  have reserved : f.pubsub.tasks.Reserved x.task := PubSub.reserved_adding present
  have counts : (f.insert x).counted = f.counted := by
    simp only [counted, Threads.insert, List.countP_cons, Bool.false_eq_true, if_false]
    rfl
  refine ⟨⟨?_, fun y member => ?_, ?_⟩, counts⟩
  · refine List.nodup_cons.mpr ⟨fun listed => ?_, poised.distinct⟩
    obtain ⟨y, old, same⟩ := List.mem_map.mp listed
    exact (known x.task (Or.inl (List.any_eq_true.mpr ⟨y, old, by simpa using same⟩))).1 reserved
  · rcases List.mem_cons.mp member with rfl | old
    · have wired := tidy.sane.wired x.setup (Or.inr ⟨x, present, rfl⟩)
      obtain ⟨l, inside, own⟩ := wired.1 (by simp [Adding.setup, phase])
      rw [Adding.setup_task] at own
      refine ⟨by simp [tidy.topics x present], l, inside, own, ?_⟩
      exact (tidy.sane.waiting l inside (own ▸ reserved)).1
    · exact poised.waiting y old
  · rw [counts]
    exact poised.counter

theorem Poised.send (poised : f.Poised) (sends : f.step (.send task) = some g) :
    g.Poised ∧ g.counted = f.counted := by
  simp only [step] at sends
  split at sends
  · cases sends
    have running : (f.pubsub.withBroker (f.pubsub.broker.shutdown [task])).runningTopics =
        f.pubsub.runningTopics := PubSub.runningTopics_update rfl fun _ => ⟨rfl, rfl⟩
    have counts : f.pubsub.runningTopics + f.inserted.countP (·.counted) = f.counted := rfl
    refine ⟨⟨poised.distinct, fun x member => ?_, ?_⟩, ?_⟩
    · obtain ⟨topic, l, present, own, idle⟩ := poised.waiting x member
      refine ⟨topic, _, List.mem_map_of_mem present, ?_, ?_⟩
      · split
        · exact own
        · exact own
      · split
        · exact idle
        · exact idle
    · rw [counted, running, counts]
      exact poised.counter
    · rw [counted, running, counts]
  · contradiction

theorem Poised.count (poised : f.Poised) (counts : f.step (.count task) = some g) :
    g.Poised ∧ g.counted = f.counted + 1 := by
  simp only [step] at counts
  split at counts <;> rename_i listed
  · cases counts
    have perm := List.perm_cons_erase listed
    have same := perm.countP_eq (·.counted)
    simp only [List.countP_cons, Bool.false_eq_true, if_false, Nat.add_zero] at same
    have more : (⟨task, true⟩ :: f.inserted.erase ⟨task, false⟩ : List Inserted).countP (·.counted) =
        f.inserted.countP (·.counted) + 1 := by
      rw [List.countP_cons, if_pos rfl, same]
    have counts : f.pubsub.runningTopics + (f.inserted.countP (·.counted) + 1) = f.counted + 1 := rfl
    refine ⟨⟨?_, fun x member => ?_, ?_⟩, ?_⟩
    · exact (perm.map Inserted.task).nodup_iff.mp poised.distinct
    · rcases List.mem_cons.mp member with rfl | old
      · exact poised.waiting ⟨task, false⟩ listed
      · exact poised.waiting x (List.mem_of_mem_erase old)
    · rw [counted, more]
      change f.pubsub.broker.activeTopicListeners + 1 = _
      rw [poised.counter]
      exact (BitVec.ofNat_add _ _).symm
    · rw [counted, more]
      exact counts
  · contradiction

theorem Poised.spawn (poised : f.Poised) (single : f.pubsub.Single)
    (spawned : f.step (.spawn task) = some g) : g.Poised ∧ g.counted = f.counted := by
  simp only [step] at spawned
  split at spawned <;> rename_i listed
  · cases spawned
    have perm := List.perm_cons_erase listed
    have same := perm.countP_eq (·.counted)
    rw [List.countP_cons, if_pos rfl] at same
    obtain ⟨named, l, present, rfl, idle⟩ := poised.waiting _ listed
    have running : (f.pubsub.withBroker (f.pubsub.broker.start l.id)).runningTopics =
        f.pubsub.runningTopics + 1 := by
      have moved := countP_updateWhere (fun l => { l with running := true }) single.distinct
        present fun l => l.running && l.id.topic.isSome
      simp only [idle, named, Bool.false_and, Bool.false_eq_true, if_false, Bool.and_self, if_true,
        Nat.add_zero] at moved
      exact moved
    have counts : (f.pubsub.withBroker (f.pubsub.broker.start l.id)).runningTopics +
        (f.inserted.erase ⟨l.id, true⟩).countP (·.counted) = f.counted := by
      rw [running, counted, same]
      omega
    have distinct := (perm.map Inserted.task).nodup_iff.mp poised.distinct
    rw [List.map_cons, List.nodup_cons] at distinct
    refine ⟨⟨distinct.2, fun x member => ?_, ?_⟩, counts⟩
    · obtain ⟨topic, l', inside, own, waits⟩ := poised.waiting x (List.mem_of_mem_erase member)
      refine ⟨topic, l', mem_updateWhere_of_miss inside ?_, own, waits⟩
      have other : l'.id ≠ l.id := fun equal =>
        distinct.1 (List.mem_map.mpr ⟨x, member, own.symm.trans equal⟩)
      simpa using other
    · rw [counted, counts]
      exact poised.counter
  · contradiction

end Poised

/-- The registry is manned once what is under way is done, and the counter fits what is. -/
structure Reconciled (f : Threads) : Prop where
  orderly : f.Orderly
  rostered : f.settle.Rostered
  manned : f.settle.Manned
  poised : f.Poised

section Reconciled

theorem initial_reconciled : initial.Reconciled := by
  have none : initial.settle = PubSub.initial := rfl
  refine ⟨initial_orderly, ?_, ?_, List.nodup_nil, by simp [initial], rfl⟩
  · constructor <;> simp [none, PubSub.initial, Broker.empty, PubSub.topicClaims, Distinct]
  · constructor <;> simp [none, PubSub.initial, Broker.empty, PubSub.topicClaims]

theorem Reconciled.act (before : f.Reconciled) (upheld : f.pubsub.Upheld a)
    (acted : f.step (.act a) = some g) :
    g.Reconciled ∧ f.noteCounter (.act a) (some f.counted) = some g.counted := by
  have orderly := before.orderly
  have settled := act_settle orderly.known orderly.tidy.topics acted
  have upheld : f.settle.Upheld a := upheld
  have tidy : f.pubsub.Tidy := PubSub.forward_tidy orderly.tidy
  have single : f.pubsub.Single := PubSub.forward_single orderly.single
  have poised : g.Poised ∧ g.counted + (if f.pubsub.countsOut a then 1 else 0) = f.counted := by
    cases act_acts acted with
    | through _ t stepped early =>
      exact before.poised.through orderly.known tidy single stepped early
    | idle _ changes => exact ⟨before.poised, by simp [PubSub.countsOut_plain changes]⟩
    | inserted x ok present phase =>
      exact before.poised.insert orderly.known tidy present phase
    | removed channel sub taken found =>
      obtain ⟨-, listeners, counter⟩ := takeControl_ok found
      exact before.poised.take listeners counter
    | left sub taken _ found =>
      obtain ⟨-, listeners, counter⟩ := takeEntry_some found
      exact before.poised.take listeners counter
  refine ⟨⟨orderly.step acted, before.rostered.step orderly.tidy upheld settled,
    before.manned.step before.rostered orderly.tidy orderly.single upheld settled, poised.1⟩, ?_⟩
  have counts := poised.2
  simp only [noteCounter]
  split <;> rename_i out
  · rw [if_pos out] at counts
    simp only [Option.bind_some]
    rw [if_neg (by omega)]
    exact congrArg some (by omega)
  · rw [if_neg out] at counts
    exact congrArg some (by omega)

theorem Reconciled.step (before : f.Reconciled) (upholds : f.Upholds a) (stepped : f.step a = some g) :
    g.Reconciled ∧ f.noteCounter a (some f.counted) = some g.counted := by
  have behind (same : g.settle = f.settle) (poised : g.Poised) : g.Reconciled :=
    ⟨before.orderly.step stepped, same ▸ before.rostered, same ▸ before.manned, poised⟩
  cases a with
  | act a => exact before.act upholds stepped
  | send task =>
    obtain ⟨poised, counts⟩ := before.poised.send stepped
    exact ⟨behind (send_settle stepped) poised, congrArg some counts.symm⟩
  | count task =>
    obtain ⟨poised, counts⟩ := before.poised.count stepped
    exact ⟨behind (count_settle stepped) poised, congrArg some counts.symm⟩
  | spawn task =>
    have single := PubSub.forward_single before.orderly.single
    obtain ⟨poised, counts⟩ := before.poised.spawn single stepped
    exact ⟨behind (spawn_settle stepped) poised, congrArg some counts.symm⟩

end Reconciled

/-- The counter never goes below zero, and when no call is in progress and no stopped listener is
running any more, it is the number of (subscription, topic) pairs in the registry. -/
theorem run_counter (schedule : List Action) (meets : Meets step Upholds initial schedule)
    (h : run step initial schedule = some f) :
    ∃ n, record step noteCounter initial (some 0) schedule = some n ∧
      f.pubsub.broker.activeTopicListeners = BitVec.ofNat 64 n ∧
      (f.Quiescent → n = f.pubsub.pairs) ∧
      (f.Quiescent → f.pubsub.broker.subscriptions = [] →
        f.pubsub.broker.activeTopicListeners = 0) := by
  have reconciled : f.Reconciled ∧
      record step noteCounter initial (some 0) schedule = some f.counted := by
    refine history_of_meets (I := fun past f => f.Reconciled ∧
      record step noteCounter initial (some 0) past = some f.counted) ?_
      ⟨initial_reconciled, rfl⟩ meets h
    rintro past u a v reached ⟨before, counter⟩ upholds stepped
    obtain ⟨after, counts⟩ := before.step upholds stepped
    exact ⟨after, by rw [record_append reached stepped, counter, counts]⟩
  obtain ⟨before, counter⟩ := reconciled
  have pairs (quiet : f.Quiescent) : f.counted = f.pubsub.pairs := by
    have settled : f.settle = f.pubsub := settle_eq quiet.inserted quiet.sending
    have running := PubSub.runningTopics_eq_pairs (settled ▸ before.orderly.single)
      (settled ▸ before.rostered) (settled ▸ before.manned) quiet.still
    rw [counted, running, quiet.inserted]
    rfl
  refine ⟨f.counted, counter, before.poised.counter, pairs, fun quiet empty => ?_⟩
  rw [before.poised.counter, pairs quiet, PubSub.pairs, empty]
  rfl

/-- Two calls add the same topic at once: the first one's control is gone before its task is
spawned. -/
def rush : List Action :=
  let added (number : Nat) : TaskId := ⟨0, some "news", number⟩
  let calls : List PubSub.Action := .subscribe 0 ["inbox"] :: List.replicate 3 (.advance 0 true) ++
    List.replicate 2 (.addSubscription "news" 0) ++
    List.replicate 3 (.advanceAdd (added 1) true) ++ List.replicate 3 (.advanceAdd (added 2) true)
  calls.map .act ++ [.send (added 1), .count (added 2), .spawn (added 2), .count (added 1),
    .spawn (added 1), .act (.stop (added 1))]

/-- The client leaves. -/
def leave : List Action :=
  let base : TaskId := ⟨0, none, 0⟩
  let added : TaskId := ⟨0, some "news", 2⟩
  [.act (.unsubscribe 0), .send base, .send added, .act (.stop added), .act (.stop base)]

theorem rush_counter :
    (∃ f, run step initial rush = some f ∧ f.Quiescent ∧ f.pubsub.pairs = 1 ∧
      f.pubsub.broker.activeTopicListeners = 1) ∧
    ∃ f, run step initial (rush ++ leave) = some f ∧ f.Quiescent ∧
      f.pubsub.broker.subscriptions = [] ∧ f.pubsub.broker.activeTopicListeners = 0 := by
  refine ⟨?_, ?_⟩
  · have ran : ((run step initial rush).filter fun f =>
        decide (f.Quiescent ∧ f.pubsub.pairs = 1)).isSome = true := by decide +kernel
    obtain ⟨f, found⟩ := Option.isSome_iff_exists.mp ran
    obtain ⟨h, state⟩ := Option.filter_eq_some_iff.mp found
    obtain ⟨quiet, one⟩ := of_decide_eq_true state
    obtain ⟨n, -, counter, pairs, -⟩ := run_counter rush (by decide +kernel) h
    refine ⟨f, h, quiet, one, ?_⟩
    rw [counter, pairs quiet, one]
    rfl
  · have ran : ((run step initial (rush ++ leave)).filter fun f =>
        decide (f.Quiescent ∧ f.pubsub.broker.subscriptions = [])).isSome = true := by
      decide +kernel
    obtain ⟨f, found⟩ := Option.isSome_iff_exists.mp ran
    obtain ⟨h, state⟩ := Option.filter_eq_some_iff.mp found
    obtain ⟨quiet, empty⟩ := of_decide_eq_true state
    obtain ⟨n, -, -, -, none⟩ := run_counter (rush ++ leave) (by decide +kernel) h
    exact ⟨f, h, quiet, empty, none quiet empty⟩

end Threads
end Propeller
