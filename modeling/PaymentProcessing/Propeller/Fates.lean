import PaymentProcessing.Propeller.Ordering
import PaymentProcessing.Propeller.Zombies

/-! What one step does to one listener. Every listener has a task of its own, so what goes
on, ends or is new can be told from the task that the step is about. -/
namespace Propeller
open Relational Transition

namespace Broker
variable {α : Type}

def ids (b : Broker α) : List TaskId := b.listeners.map Listener.id

theorem mem_ids {b : Broker α} : task ∈ b.ids ↔ ∃ l ∈ b.listeners, l.id = task := List.mem_map

theorem ids_update (b : Broker α) (hit : Listener α → Bool) {set : Listener α → Listener α}
    (id : ∀ l, (set l).id = l.id) :
    ({ b with listeners := updateWhere hit set b.listeners } : Broker α).ids = b.ids :=
  map_updateWhere Listener.id id

@[simp] theorem ids_publish (b : Broker α) (message : Message α) : (b.publish message).ids = b.ids := by
  simp only [ids, Broker.publish, List.map_map, Function.comp_def, offer_id]

@[simp] theorem ids_connect (b : Broker α) (task : TaskId) : (b.connect task).ids = b.ids ++ [task] := by
  simp only [ids, Broker.connect, List.map_append, List.map_cons, List.map_nil]

@[simp] theorem ids_listen (b : Broker α) (task : TaskId) (channel : String) :
    (b.listen task channel).ids = b.ids := ids_update b _ fun _ => rfl

@[simp] theorem ids_start (b : Broker α) (task : TaskId) : (b.start task).ids = b.ids :=
  ids_update b _ fun _ => rfl

@[simp] theorem ids_shutdown (b : Broker α) (tasks : List TaskId) : (b.shutdown tasks).ids = b.ids :=
  ids_update b _ fun _ => rfl

@[simp] theorem ids_hangUp (b : Broker α) (task : TaskId) : (b.hangUp task).ids = b.ids :=
  ids_update b _ fun _ => rfl

theorem ids_close (b : Broker α) (task : TaskId) : (b.close task).ids.Sublist b.ids :=
  List.filter_sublist.map Listener.id

@[simp] theorem ids_finishAdd (b : Broker α) (channel : String) (sub : Uuid) (number : Nat) :
    (b.finishAdd channel sub number).ids = b.ids :=
  (ids_start _ _).trans (ids_shutdown b _)

theorem ids_removeSubscription {b b' : Broker α} (removed : b.removeSubscription channel sub = .ok b') :
    b'.ids = b.ids := by
  obtain ⟨entry, -, -, rfl⟩ := removeSubscription_ok removed
  exact ids_shutdown b _

@[simp] theorem ids_unsubscribe (b : Broker α) (sub : Uuid) : (b.unsubscribe sub).ids = b.ids := by
  unfold Broker.unsubscribe
  split
  · rfl
  · exact ids_shutdown b _

theorem Finishes.ids {b b' : Broker α} (h : Finishes b task l b') : b'.ids.Sublist b.ids := by
  rw [h.state]
  exact ids_close b task

theorem Delivers.ids {b b' : Broker α} (h : Delivers b task l message rest b') : b'.ids = b.ids := by
  unfold Broker.ids
  rw [h.listeners, List.map_map]
  exact List.map_congr_left fun l _ => took_id task l

/-- Only a task that was spawned takes messages. -/
theorem deliver_running {b b' : Broker α} (h : b.deliver task = some b') :
    ∃ l ∈ b.listeners, l.id = task ∧ l.running = true := by
  unfold deliver at h
  split at h
  · rename_i found
    obtain ⟨member, same⟩ := lookup_mem found
    exact ⟨_, member, same, rfl⟩
  · contradiction

theorem endOfStream_down {b b' : Broker α} (h : b.endOfStream task = some b') :
    ∃ l ∈ b.listeners, l.id = task ∧ l.connected = false := by
  unfold endOfStream at h
  split at h
  · rename_i l found
    obtain ⟨member, same⟩ := lookup_mem found
    split at h
    · rename_i ended
      simp only [Bool.and_eq_true, Bool.not_eq_true'] at ended
      exact ⟨l, member, same, ended.1.2⟩
    · contradiction
  · contradiction

end Broker

namespace PubSub
variable {s t : PubSub}

/-- Each listener has a task of its own, and a task without connection has none. -/
structure Single (s : PubSub) : Prop where
  distinct : Distinct Listener.id s.broker.listeners
  unconnected : ∀ x, s.tasks.setups x → x.connected = false → x.task ∉ s.broker.ids

theorem Single.unique (single : s.Single) (left : l ∈ s.broker.listeners)
    (right : l' ∈ s.broker.listeners) (same : l.id = l'.id) : l = l' :=
  single.distinct.unique left right same

section Single

theorem Single.fewer (single : s.Single) (tidy : s.Tidy) (ids : t.broker.ids.Sublist s.broker.ids)
    (setups : ∀ x, t.tasks.setups x → x.connected = false →
      s.tasks.setups x ∨ x.task.number = s.next) : t.Single := by
  refine ⟨single.distinct.sublist ids, fun x present idle listening => ?_⟩
  have before := ids.subset listening
  rcases setups x present idle with old | new
  · exact single.unconnected x old idle before
  · obtain ⟨l, member, same⟩ := Broker.mem_ids.mp before
    have below := tidy.sane.listeners_lt l member
    rw [same] at below
    omega

theorem Single.connect (single : s.Single) (setup : s.tasks.setups x) (idle : x.connected = false)
    (ids : t.broker.ids = s.broker.ids ++ [x.task])
    (setups : ∀ y, t.tasks.setups y → y.connected = false → s.tasks.setups y ∧ y.task ≠ x.task) :
    t.Single := by
  have absent := single.unconnected x setup idle
  refine ⟨?_, fun y present waits listening => ?_⟩
  · change t.broker.ids.Nodup
    rw [ids]
    exact List.Nodup.append single.distinct (List.nodup_singleton _)
      (by simpa using absent)
  · obtain ⟨old, other⟩ := setups y present waits
    rw [ids, List.mem_append, List.mem_singleton] at listening
    exact listening.elim (single.unconnected y old waits) other

theorem Advances.single (h : Advances s c ok t) (tidy : s.Tidy) (found : s.call c.sub = some c)
    (single : s.Single) : t.Single := by
  have onward {stage} (calls : t.calls = (s.enter c.sub stage).calls) (adding : t.adding = s.adding)
      (settled : ∀ x, Call.setup { c with stage := stage } = some x → x.connected = true) (y)
      (present : t.tasks.setups y) (idle : y.connected = false) :
      s.tasks.setups y ∧ y.task ≠ c.task := by
    rcases entered_setups tidy found calls adding present with own | old
    · exact absurd (settled y own) (by simp [idle])
    · exact old
  cases h with
  | connected todo stage =>
    exact single.connect (setup_of_call found stage) rfl (Broker.ids_connect s.broker c.task)
      (onward rfl rfl (by simp [Call.setup]))
  | unconnected todo stage =>
    exact single.fewer tidy (List.Sublist.refl _) fun y present idle =>
      Or.inl (onward rfl rfl (by simp [Call.setup]) y present idle).1
  | listening channel todo stage =>
    refine single.fewer tidy ?_ fun y present idle =>
      Or.inl (onward rfl rfl (by simp [Call.setup]) y present idle).1
    exact (Broker.ids_listen s.broker c.task channel) ▸ List.Sublist.refl _
  | unsubscribed channel todo stage =>
    exact single.fewer tidy (Broker.ids_close s.broker c.task) fun y present idle =>
      Or.inl (onward rfl rfl (by simp [Call.setup]) y present idle).1
  | spawned ok stage =>
    refine single.fewer tidy ?_ fun y present idle =>
      Or.inl (onward rfl rfl (by simp [Call.setup]) y present idle).1
    exact (Broker.ids_start s.broker c.task) ▸ List.Sublist.refl _

theorem Adds.single (h : Adds s a t) (tidy : s.Tidy) (present : a ∈ s.adding)
    (single : s.Single) : t.Single := by
  have setup : s.tasks.setups a.setup := Or.inr ⟨a, present, rfl⟩
  -- the addition itself is connected, if it goes on at all
  have going {phase} (calls : t.calls = s.calls)
      (adding : t.adding = { a with phase := phase } :: s.others a)
      (settled : (Adding.setup { a with phase := phase }).connected = true) (y)
      (inside : t.tasks.setups y) (idle : y.connected = false) :
      s.tasks.setups y ∧ y.task ≠ a.task := by
    rcases inside with call | ⟨b, member, rfl⟩
    · exact others_setups tidy present calls (Or.inl call)
    · rw [adding] at member
      rcases List.mem_cons.mp member with rfl | other
      · exact absurd settled (by simp [idle])
      · exact others_setups tidy present calls (Or.inr ⟨b, other, rfl⟩)
  have gone (calls : t.calls = s.calls) (adding : t.adding = s.others a) (y)
      (inside : t.tasks.setups y) (_ : y.connected = false) :
      s.tasks.setups y ∨ y.task.number = s.next := by
    refine Or.inl (others_setups tidy present calls ?_).1
    rcases inside with call | ⟨b, member, same⟩
    · exact Or.inl call
    · exact Or.inr ⟨b, adding ▸ member, same⟩
  cases h with
  | connected phase =>
    have idle : a.setup.connected = false := by simp [Adding.setup, phase]
    refine single.connect setup idle ?_ ?_
    · rw [Adding.setup_task]
      exact Broker.ids_connect s.broker a.task
    · rw [Adding.setup_task]
      exact going rfl rfl rfl
  | unconnected phase => exact single.fewer tidy (List.Sublist.refl _) (gone rfl rfl)
  | listening phase =>
    refine single.fewer tidy ?_ fun y inside idle => Or.inl (going rfl rfl rfl y inside idle).1
    exact (Broker.ids_listen s.broker a.task a.channel) ▸ List.Sublist.refl _
  | unsubscribed phase => exact single.fewer tidy (Broker.ids_close s.broker a.task) (gone rfl rfl)
  | inserted phase =>
    refine single.fewer tidy ?_ (gone rfl rfl)
    exact (Broker.ids_finishAdd s.broker a.channel a.task.sub a.task.number) ▸ List.Sublist.refl _

theorem turn_ids {b : Broker Nat} (h : s.broker.Turns Action.turn a b) :
    b.ids.Sublist s.broker.ids := by
  cases h.outcome with
  | finished task l _ _ finishes => exact finishes.ids
  | delivered task l message rest _ delivers => exact delivers.ids ▸ List.Sublist.refl _
  | hungUp task => exact (Broker.ids_hangUp s.broker task) ▸ List.Sublist.refl _
  | received sub message _ received =>
    obtain ⟨rest, -, rfl⟩ := Broker.receive_ok received
    exact List.Sublist.refl _
  | dropped sub => exact List.Sublist.refl _

theorem Moves.single (moves : Moves s a t) (tidy : s.Tidy) (single : s.Single) : t.Single := by
  have same (y) (inside : s.tasks.setups y) (_ : y.connected = false) :
      s.tasks.setups y ∨ y.task.number = s.next := Or.inl inside
  cases moves with
  | unadded | unremoved => exact single
  | publish channel data =>
    refine single.fewer tidy ?_ same
    exact (Broker.ids_publish s.broker _) ▸ List.Sublist.refl _
  | subscribe sub channels absent =>
    refine single.fewer tidy (List.Sublist.refl _) fun y inside _ => ?_
    rcases inside with ⟨c, member, setup⟩ | adding
    · rcases List.mem_append.mp member with old | new
      · exact Or.inl (Or.inl ⟨c, old, setup⟩)
      · rw [List.mem_singleton.mp new, Call.setup] at setup
        cases setup
        exact Or.inr rfl
    · exact Or.inl (Or.inr adding)
  | advance c ok _ found advanced => exact advanced.single tidy found single
  | addSubscription channel sub checked =>
    refine single.fewer tidy (List.Sublist.refl _) fun y inside _ => ?_
    rcases inside with call | ⟨b, member, rfl⟩
    · exact Or.inl (Or.inl call)
    · rcases List.mem_cons.mp member with rfl | old
      · exact Or.inr rfl
      · exact Or.inl (Or.inr ⟨b, old, rfl⟩)
  | advanceAdd a ok _ present adds => exact adds.single tidy present single
  | removeSubscription channel sub b removed =>
    refine single.fewer tidy ?_ same
    exact (Broker.ids_removeSubscription removed) ▸ List.Sublist.refl _
  | unsubscribe sub idle free =>
    refine single.fewer tidy ?_ same
    exact (Broker.ids_unsubscribe s.broker sub) ▸ List.Sublist.refl _
  | turn a b turns => exact single.fewer tidy (turn_ids turns) same

theorem initial_single : initial.Single := by
  refine ⟨List.nodup_nil, fun x present => ?_⟩
  simp [initial, tasks] at present

theorem run_tidy (h : run step initial schedule = some s) : s.Tidy :=
  invariant (fun before stepped => ((step_moves stepped).zombies before).1) initial_tidy h

theorem run_single (h : run step initial schedule = some s) : s.Single := by
  have both : s.Tidy ∧ s.Single := by
    refine invariant (I := fun s => s.Tidy ∧ s.Single) (fun before stepped => ?_)
      ⟨initial_tidy, initial_single⟩ h
    exact ⟨((step_moves stepped).zombies before.1).1, (step_moves stepped).single before.1 before.2⟩
  exact both.2

end Single

/-- A step that tells the task to stop. -/
inductive Tells (s : PubSub) (task : TaskId) : Action → Prop where
  | removed (channel) : task.topic = some channel →
      Tells s task (.removeSubscription channel task.sub)
  | unsubscribed : Tells s task (.unsubscribe task.sub)
  | replaced (a ok) : a ∈ s.adding → a.phase = .inserting → a.task.sub = task.sub →
      task.topic = some a.channel → a.task ≠ task → Tells s task (.advanceAdd a.task ok)

/-- A step that spawns the task: the end of its `subscribe`, or the insertion of its control. -/
inductive Spawns (s : PubSub) (task : TaskId) : Action → Prop where
  | base (ok) : task.topic = none → Spawns s task (.advance task.sub ok)
  | topic (a ok) : a ∈ s.adding → a.phase = .inserting → a.task = task →
      Spawns s task (.advanceAdd task ok)

/-- The step may give the task a message or take one from it. -/
def Action.touches : Action → TaskId → Prop
  | .publish _ _, _ => True
  | .deliver task, other => task = other
  | _, _ => False

/-- What the other steps make of a listener that goes on. -/
inductive Turned (s : PubSub) (a : Action) (l : Listener Nat) : Listener Nat → Prop where
  | same : Turned s a l l
  | listens (channel) : s.tasks.Reserved l.id → (∀ topic, l.id.topic = some topic → channel = topic) →
      Turned s a l { l with channels := l.channels ++ [channel] }
  | starts : s.tasks.Reserved l.id → Spawns s l.id a → Turned s a l { l with running := true }
  | told : Tells s l.id a → Turned s a l { l with stopping := true }
  | hangsUp : a = .hangUp l.id → Turned s a l { l with connected := false }

/-- What a step makes of a listener that goes on. -/
inductive Goes (s : PubSub) (a : Action) (l : Listener Nat) : Listener Nat → Prop where
  | offered (channel data) : a = .publish channel data →
      Goes s a l (Broker.offer ⟨channel, data, s.published.length⟩ l)
  | took (message rest) : a = .deliver l.id → l.inbox = message :: rest → l.running = true →
      l.id.sub ∉ s.broker.dropped → Goes s a l { l with inbox := rest }
  | turned (l') : ¬ a.touches l.id → Turned s a l l' → Goes s a l l'

/-- Why a listener ends: its call failed, or its task returned. -/
inductive Leaves (s : PubSub) (a : Action) (l : Listener Nat) : Prop where
  | closed : s.tasks.Reserved l.id → Leaves s a l
  | stopped : a = .stop l.id → l.running = true → l.stopping = true → Leaves s a l
  | hungUp : a = .endOfStream l.id → l.running = true → l.connected = false → Leaves s a l
  | unheard : a = .deliver l.id → l.running = true → l.id.sub ∈ s.broker.dropped → Leaves s a l

structure Fates (s : PubSub) (a : Action) (t : PubSub) : Prop where
  forward : ∀ l ∈ s.broker.listeners, (∃ l' ∈ t.broker.listeners, Goes s a l l') ∨ Leaves s a l
  backward : ∀ l' ∈ t.broker.listeners, (∃ l ∈ s.broker.listeners, Goes s a l l') ∨
    s.tasks.Reserved l'.id ∧ l' = ⟨l'.id, [], [], false, false, true⟩

theorem Turned.kept (h : Turned s a l l') : l'.id = l.id ∧ l'.inbox = l.inbox := by
  cases h with
  | _ => exact ⟨rfl, rfl⟩

theorem Goes.id (h : Goes s a l l') : l'.id = l.id := by
  cases h with
  | offered => exact Broker.offer_id _ _
  | took => rfl
  | turned _ _ turned => exact turned.kept.1

theorem offer_flags (message : Message Nat) (l : Listener Nat) :
    (Broker.offer message l).running = l.running ∧ (Broker.offer message l).stopping = l.stopping ∧
      (Broker.offer message l).connected = l.connected := by
  unfold Broker.offer
  split
  · exact ⟨rfl, rfl, rfl⟩
  · exact ⟨rfl, rfl, rfl⟩

theorem Goes.running (h : Goes s a l l') (running : l.running = true) : l'.running = true := by
  cases h with
  | offered => exact (offer_flags _ l).1.trans running
  | took => exact running
  | turned _ _ turned =>
    cases turned with
    | starts => rfl
    | _ => exact running

/-- Nothing takes back that a task is to stop. -/
theorem Goes.stopping (h : Goes s a l l') (going : l'.stopping = false) : l.stopping = false := by
  cases h with
  | offered => exact (offer_flags _ l).2.1.symm.trans going
  | took => exact going
  | turned _ _ turned =>
    cases turned with
    | told => cases going
    | _ => exact going

theorem Goes.started (h : Goes s a l l') (running : l'.running = true) :
    l.running = true ∨ Spawns s l.id a := by
  cases h with
  | offered => exact Or.inl ((offer_flags _ l).1.symm.trans running)
  | took => exact Or.inl running
  | turned _ _ turned =>
    cases turned with
    | starts _ spawns => exact Or.inr spawns
    | _ => exact Or.inl running

theorem Goes.connected (h : Goes s a l l') (up : l.connected = true) :
    l'.connected = true ∨ a = .hangUp l.id := by
  cases h with
  | offered => exact Or.inl ((offer_flags _ l).2.2.trans up)
  | took => exact Or.inl up
  | turned _ _ turned =>
    cases turned with
    | hangsUp hung => exact Or.inr hung
    | _ => exact Or.inl up

section Fates

theorem Fates.map {f : Listener Nat → Listener Nat}
    (listeners : t.broker.listeners = s.broker.listeners.map f)
    (goes : ∀ l ∈ s.broker.listeners, Goes s a l (f l)) : Fates s a t := by
  constructor
  · intro l member
    exact Or.inl ⟨f l, listeners ▸ List.mem_map_of_mem member, goes l member⟩
  · intro l' member
    rw [listeners] at member
    obtain ⟨l, present, rfl⟩ := List.mem_map.mp member
    exact Or.inl ⟨l, present, goes l present⟩

theorem Fates.same (untouched : ∀ task, ¬ a.touches task)
    (listeners : t.broker.listeners = s.broker.listeners) : Fates s a t :=
  .map (f := id) (listeners.trans (List.map_id _).symm) fun l _ => .turned l (untouched l.id) .same

/-- Where one kind of listener is rewritten. -/
theorem Fates.update {hit : Listener Nat → Bool} {set : Listener Nat → Listener Nat}
    (untouched : ∀ task, ¬ a.touches task)
    (listeners : t.broker.listeners = updateWhere hit set s.broker.listeners)
    (turned : ∀ l ∈ s.broker.listeners, hit l = true → Turned s a l (set l)) : Fates s a t := by
  refine .map listeners fun l member => .turned _ (untouched l.id) ?_
  split <;> rename_i selected
  · exact turned l member selected
  · exact .same

theorem Fates.close (task : TaskId) (untouched : ∀ other, other ≠ task → ¬ a.touches other)
    (listeners : t.broker.listeners = (s.broker.close task).listeners)
    (leaves : ∀ l ∈ s.broker.listeners, l.id = task → Leaves s a l) : Fates s a t := by
  constructor
  · intro l member
    by_cases ends : l.id = task
    · exact Or.inr (leaves l member ends)
    · refine Or.inl ⟨l, ?_, .turned l (untouched l.id ends) .same⟩
      rw [listeners]
      exact List.mem_filter.mpr ⟨member, by simpa using ends⟩
  · intro l member
    rw [listeners] at member
    obtain ⟨present, other⟩ := List.mem_filter.mp member
    exact Or.inl ⟨l, present, .turned l (untouched l.id (by simpa using other)) .same⟩

theorem Fates.connect {task : TaskId} (untouched : ∀ task, ¬ a.touches task)
    (listeners : t.broker.listeners = (s.broker.connect task).listeners)
    (reserved : s.tasks.Reserved task) : Fates s a t := by
  constructor
  · intro l member
    exact Or.inl ⟨l, listeners ▸ List.mem_append_left _ member, .turned l (untouched l.id) .same⟩
  · intro l member
    rw [listeners] at member
    rcases List.mem_append.mp member with old | new
    · exact Or.inl ⟨l, old, .turned l (untouched l.id) .same⟩
    · rw [List.mem_singleton.mp new]
      exact Or.inr ⟨reserved, rfl⟩

theorem Fates.finish {b : Broker Nat} (untouched : ∀ other, other ≠ task → ¬ a.touches other)
    (single : s.Single) (finishes : Broker.Finishes s.broker task l b)
    (listeners : t.broker.listeners = b.listeners) (leaves : Leaves s a l) : Fates s a t := by
  refine .close task untouched ?_ fun l' member same => ?_
  · rw [listeners, finishes.state]
    rfl
  · rwa [single.unique member finishes.member (same.trans finishes.id.symm)]

theorem Advances.fates (h : Advances s c ok t) (found : s.call c.sub = some c) :
    Fates s (.advance c.sub ok) t := by
  cases h with
  | connected todo stage => exact .connect (fun _ => id) rfl (reserved_call found stage)
  | unconnected todo stage => exact .same (fun _ => id) rfl
  | listening channel todo stage =>
    refine .update (fun _ => id) rfl fun l member selected => ?_
    have same : l.id = c.task := by simpa using selected
    refine .listens channel (same ▸ reserved_call found stage) ?_
    simp [same, Call.task]
  | unsubscribed channel todo stage =>
    exact .close c.task (fun _ _ => id) rfl
      fun l member same => .closed (same ▸ reserved_call found stage)
  | spawned ok stage =>
    refine .update (fun _ => id) rfl fun l member selected => ?_
    have same : l.id = c.task := by simpa using selected
    refine .starts (same ▸ reserved_call found stage) ?_
    rw [same]
    exact .base ok rfl

theorem Adds.fates (h : Adds s a t) (tidy : s.Tidy) (present : a ∈ s.adding) :
    Fates s (.advanceAdd a.task ok) t := by
  have reserved : s.tasks.Reserved a.task := reserved_adding present
  cases h with
  | connected phase => exact .connect (fun _ => id) rfl reserved
  | unconnected phase => exact .same (fun _ => id) rfl
  | listening phase =>
    refine .update (fun _ => id) rfl fun l member selected => ?_
    have same : l.id = a.task := by simpa using selected
    refine .listens a.channel (same ▸ reserved) fun topic named => ?_
    rw [same, tidy.topics a present] at named
    exact Option.some.inj named
  | unsubscribed phase =>
    exact .close a.task (fun _ _ => id) rfl fun l member same => .closed (same ▸ reserved)
  | inserted phase =>
    have own : (⟨a.task.sub, some a.channel, a.task.number⟩ : TaskId) = a.task := by
      rw [← tidy.topics a present]
    let replaced : List TaskId := (s.broker.subscriptions.filter (·.id = a.task.sub)).flatMap
      (Broker.ActiveSubscription.topicTasks · a.channel)
    let stop (l : Listener Nat) : Listener Nat := { l with stopping := true }
    let start (l : Listener Nat) : Listener Nat := { l with running := true }
    let stopped (l : Listener Nat) : Listener Nat := if replaced.contains l.id then stop l else l
    let f (l : Listener Nat) : Listener Nat :=
      if (stopped l).id == ⟨a.task.sub, some a.channel, a.task.number⟩ then start (stopped l)
      else stopped l
    refine .map (f := f) (List.map_map ..) fun l member => ?_
    refine .turned _ id ?_
    change Turned s _ l (if (stopped l).id == _ then start (stopped l) else stopped l)
    rw [own]
    by_cases listed : l.id ∈ replaced
    · obtain ⟨claimed, sub, topic⟩ := replaced_claimed listed
      -- what is being added is not registered yet
      have other : ¬ l.id = a.task := fun same =>
        tidy.sane.unclaimed _ _ (same ▸ reserved) claimed
      have still : stopped l = stop l := if_pos (List.contains_iff_mem.mpr listed)
      rw [still, if_neg (by simpa [stop] using other)]
      exact .told (.replaced a ok present phase sub.symm topic (Ne.symm other))
    · have still : stopped l = l := if_neg (mt List.contains_iff_mem.mp listed)
      rw [still]
      by_cases same : l.id = a.task
      · rw [if_pos (by simpa using same)]
        refine .starts (same ▸ reserved) ?_
        rw [same]
        exact .topic a ok present phase rfl
      · rw [if_neg (by simpa using same)]
        exact .same

theorem turn_fates {b : Broker Nat} (h : s.broker.Turns .turn a b) (single : s.Single) :
    Fates s a (s.withBroker b) := by
  cases h with
  | deliver task _ delivered =>
    rcases Broker.deliver_cases delivered with ⟨gone, l, finishes⟩ | ⟨l, message, rest, delivers⟩
    · refine .finish (fun other different same => different same.symm) single finishes rfl
        (.unheard ?_ finishes.running ?_)
      · rw [finishes.id]
      · rwa [finishes.id]
    · refine .map delivers.listeners fun l' member => ?_
      by_cases same : l'.id = task
      · have own : l' = l := single.unique member delivers.member (same.trans delivers.id.symm)
        rw [own, Broker.took, if_pos (by simpa using delivers.id), delivers.inbox]
        refine .took message rest ?_ delivers.inbox ?_ ?_
        · rw [delivers.id]
        · obtain ⟨m, present, named, running⟩ := Broker.deliver_running delivered
          rwa [single.unique delivers.member present (delivers.id.trans named.symm)]
        · rw [delivers.id]
          exact delivers.owned
      · rw [Broker.took, if_neg (by simpa using same)]
        exact .turned l' (fun touched => same touched.symm) .same
  | stop task _ stopped =>
    obtain ⟨l, finishes, stopping⟩ := Broker.stop_finishes stopped
    exact .finish (fun _ _ => id) single finishes rfl (.stopped (by rw [finishes.id]) finishes.running stopping)
  | hangUp task =>
    refine .update (fun _ => id) rfl fun l member selected => .hangsUp ?_
    rw [show l.id = task by simpa using selected]
  | endOfStream task _ ended =>
    obtain ⟨l, finishes⟩ := Broker.endOfStream_finishes ended
    obtain ⟨m, present, named, down⟩ := Broker.endOfStream_down ended
    rw [← single.unique finishes.member present (finishes.id.trans named.symm)] at down
    exact .finish (fun _ _ => id) single finishes rfl (.hungUp (by rw [finishes.id]) finishes.running down)
  | receive sub message _ received =>
    obtain ⟨rest, -, rfl⟩ := Broker.receive_ok received
    exact .same (fun _ => id) rfl
  | drop sub => exact .same (fun _ => id) rfl

theorem removal_fates (removed : s.broker.removeSubscription channel sub = .ok b) :
    Fates s (.removeSubscription channel sub) (s.withBroker b) := by
  obtain ⟨entry, registered, named, rfl⟩ := Broker.removeSubscription_ok removed
  refine .update (fun _ => id) rfl fun l member selected => .told ?_
  have listed : l.id ∈ Broker.ActiveSubscription.topicTasks entry channel := by simpa using selected
  obtain ⟨number, -, same⟩ := mem_topicTasks.mp listed
  have sub_eq : l.id.sub = sub := by rw [same, named]
  rw [← sub_eq]
  exact .removed channel (by rw [same])

theorem unsubscribe_fates (s : PubSub) (sub : Uuid) :
    Fates s (.unsubscribe sub) (s.withBroker (s.broker.unsubscribe sub)) := by
  by_cases registered : s.broker.subscriptions.find? (·.id = sub) = none
  · refine .same (fun _ => id) ?_
    simp only [withBroker, Broker.unsubscribe, registered]
  · obtain ⟨entry, found⟩ := Option.ne_none_iff_exists'.mp registered
    let topics : List TaskId := entry.topicControls.map fun control => ⟨sub, some control.1, control.2⟩
    have listeners : (s.withBroker (s.broker.unsubscribe sub)).broker.listeners =
        (s.broker.shutdown (⟨sub, none, entry.control⟩ :: topics)).listeners := by
      simp only [withBroker, Broker.unsubscribe, found]
      rfl
    refine .update (fun _ => id) listeners fun l member selected => .told ?_
    have sub_eq : l.id.sub = sub := by
      rcases List.mem_cons.mp (List.contains_iff_mem.mp selected) with same | topic
      · rw [same]
      · obtain ⟨control, -, same⟩ := List.mem_map.mp topic
        rw [← same]
    rw [← sub_eq]
    exact .unsubscribed

theorem step_fates (tidy : s.Tidy) (single : s.Single) (stepped : s.step a = some t) :
    Fates s a t := by
  have moves := step_moves stepped
  cases moves with
  | publish channel data =>
    exact .map (f := Broker.offer ⟨channel, data, s.published.length⟩) rfl
      fun l _ => .offered channel data rfl
  | advance c ok _ found advanced => exact advanced.fates found
  | advanceAdd a ok _ present adds => exact adds.fates tidy present
  | removeSubscription channel sub b removed => exact removal_fates removed
  | unsubscribe sub => exact unsubscribe_fates s sub
  | turn a b turns => exact turn_fates turns single
  | _ => exact .same (fun _ => id) rfl

end Fates

section Claims

theorem topicClaims_subset (subscriptions : ∀ entry ∈ t.broker.subscriptions,
      entry.topicControls = [] ∨ ∃ old ∈ s.broker.subscriptions, old.id = entry.id ∧
        entry.topicControls ⊆ old.topicControls)
    (claimed : (task, channel) ∈ t.topicClaims) : (task, channel) ∈ s.topicClaims := by
  obtain ⟨entry, registered, number, inside, rfl⟩ := mem_topicClaims.mp claimed
  rcases subscriptions entry registered with none | ⟨old, present, named, fewer⟩
  · rw [none] at inside
    cases inside
  · exact mem_topicClaims.mpr ⟨old, present, number, fewer inside, by rw [named]⟩

/-- A control is registered only when its task is spawned. -/
theorem step_topicClaims (tidy : s.Tidy) (stepped : s.step a = some t)
    (claimed : (task, channel) ∈ t.topicClaims) :
    (task, channel) ∈ s.topicClaims ∨ Spawns s task a := by
  have same (subscriptions : t.broker.subscriptions = s.broker.subscriptions) :
      (task, channel) ∈ s.topicClaims := by
    rwa [topicClaims, ← subscriptions]
  have moves := step_moves stepped
  cases moves with
  | unadded | unremoved | publish | addSubscription => exact Or.inl (same rfl)
  | subscribe sub channels absent =>
    refine Or.inl (topicClaims_subset (fun entry registered => ?_) claimed)
    rcases List.mem_append.mp registered with old | new
    · exact Or.inr ⟨entry, old, rfl, List.Subset.refl _⟩
    · rw [List.mem_singleton.mp new]
      exact Or.inl rfl
  | advance c ok _ found advanced =>
    refine Or.inl (same ?_)
    cases advanced with
    | _ => rfl
  | advanceAdd a ok _ present adds =>
    cases adds with
    | inserted phase =>
      obtain ⟨entry, registered, number, inside, rfl⟩ := mem_topicClaims.mp claimed
      obtain ⟨old, before, rfl⟩ := mem_updateWhere.mp registered
      split at inside <;> rename_i hit
      · have named : old.id = a.task.sub := by simpa using hit
        rw [if_pos hit]
        rcases List.mem_append.mp inside with kept | new
        · exact Or.inl (mem_topicClaims.mpr
            ⟨old, before, number, List.mem_of_mem_filter kept, rfl⟩)
        · have own := List.mem_singleton.mp new
          simp only [Prod.mk.injEq] at own
          obtain ⟨rfl, rfl⟩ := own
          have equal : a.task = ⟨old.id, some a.channel, a.task.number⟩ := by
            rw [named, ← tidy.topics a present]
          exact Or.inr (equal ▸ .topic a ok present phase rfl)
      · rw [if_neg hit]
        exact Or.inl (mem_topicClaims.mpr ⟨old, before, number, inside, rfl⟩)
    | _ => exact Or.inl (same rfl)
  | removeSubscription _ sub b removed =>
    obtain ⟨entry, -, -, rfl⟩ := Broker.removeSubscription_ok removed
    refine Or.inl (topicClaims_subset (fun entry registered => Or.inr ?_) claimed)
    obtain ⟨old, before, rfl⟩ := mem_updateWhere.mp registered
    refine ⟨old, before, ?_, ?_⟩
    · split
      · rfl
      · rfl
    · split
      · exact List.filter_subset_self _
      · exact List.Subset.refl _
  | unsubscribe sub idle free =>
    refine Or.inl (topicClaims_subset (fun entry registered => Or.inr ?_) claimed)
    simp only [withBroker, Broker.unsubscribe_subscriptions] at registered
    exact ⟨entry, List.mem_of_mem_filter registered, rfl, List.Subset.refl _⟩
  | turn a b turns => exact Or.inl (same turns.subscriptions)

/-- A listener that is being added still is after the step, unless it was spawned. -/
theorem step_adding (single : s.Single) (stepped : s.step a = some t)
    (member : l ∈ t.broker.listeners) (adding : x ∈ s.adding) (own : x.task = l.id) :
    (∃ y ∈ t.adding, y.task = l.id) ∨ Spawns s l.id a := by
  have kept (same : t.adding = s.adding) : ∃ y ∈ t.adding, y.task = l.id :=
    ⟨x, same ▸ adding, own⟩
  have moves := step_moves stepped
  cases moves with
  | addSubscription => exact Or.inl ⟨x, List.mem_cons_of_mem _ adding, own⟩
  | advance c ok _ found advanced =>
    refine Or.inl (kept ?_)
    cases advanced with
    | _ => rfl
  | advanceAdd a ok _ present adds =>
    have others (other : x.task ≠ a.task) : x ∈ s.others a :=
      List.mem_filter.mpr ⟨adding, by simpa using other⟩
    by_cases same : x.task = a.task
    · cases adds with
      | connected phase | listening phase => exact Or.inl ⟨_, List.mem_cons_self, same.symm.trans own⟩
      | unconnected phase =>
        have idle : a.setup.connected = false := by simp [Adding.setup, phase]
        refine absurd (Broker.mem_ids.mpr ⟨l, member, ?_⟩)
          (single.unconnected a.setup (Or.inr ⟨a, present, rfl⟩) idle)
        rw [Adding.setup_task, ← own, same]
      | unsubscribed phase =>
        have ends := (List.mem_filter.mp member).2
        exact absurd (own.symm.trans same) (by simpa using ends)
      | inserted phase =>
        refine Or.inr ?_
        rw [← own, same]
        exact .topic a ok present phase rfl
    · cases adds with
      | connected | listening => exact Or.inl ⟨x, List.mem_cons_of_mem _ (others same), own⟩
      | unconnected | unsubscribed | inserted => exact Or.inl ⟨x, others same, own⟩
  | _ => exact Or.inl (kept rfl)

theorem step_next (stepped : s.step a = some t) : s.next ≤ t.next := by
  have moves := step_moves stepped
  cases moves with
  | subscribe | addSubscription => exact Nat.le_succ _
  | advance c ok _ found advanced =>
    cases advanced with
    | _ => exact Nat.le_refl _
  | advanceAdd a ok _ present adds =>
    cases adds with
    | _ => exact Nat.le_refl _
  | _ => exact Nat.le_refl _

/-- A task is reserved once, with a new number. -/
theorem step_reserved (tidy : s.Tidy) (stepped : s.step a = some t)
    (reserved : t.tasks.Reserved task) : s.tasks.Reserved task ∨ task.number = s.next := by
  obtain ⟨x, setup, rfl⟩ := reserved
  have moves := step_moves stepped
  cases moves with
  | subscribe sub channels =>
    rcases setup with ⟨c, member, same⟩ | adding
    · rcases List.mem_append.mp member with old | new
      · exact Or.inl ⟨x, Or.inl ⟨c, old, same⟩, rfl⟩
      · rw [List.mem_singleton.mp new, Call.setup] at same
        cases same
        exact Or.inr rfl
    · exact Or.inl ⟨x, Or.inr adding, rfl⟩
  | addSubscription channel sub =>
    rcases setup with call | ⟨b, member, rfl⟩
    · exact Or.inl ⟨x, Or.inl call, rfl⟩
    · rcases List.mem_cons.mp member with rfl | old
      · exact Or.inr rfl
      · exact Or.inl ⟨b.setup, Or.inr ⟨b, old, rfl⟩, rfl⟩
  | advance c ok _ found advanced =>
    have own : s.tasks.Reserved c.task := by
      cases advanced with
      | connected _ stage | unconnected _ stage => exact reserved_call found stage
      | listening _ _ stage | unsubscribed _ _ stage => exact reserved_call found stage
      | spawned _ stage => exact reserved_call found stage
    have kept {stage} (calls : t.calls = (s.enter c.sub stage).calls) (adding : t.adding = s.adding) :
        s.tasks.Reserved x.task := by
      rcases entered_setups tidy found calls adding setup with new | ⟨old, -⟩
      · exact (Call.setup_task new).1 ▸ own
      · exact ⟨x, old, rfl⟩
    cases advanced with
    | _ => exact Or.inl (kept rfl rfl)
  | advanceAdd a ok _ present adds =>
    have own : s.tasks.Reserved a.task := reserved_adding present
    have kept (under : (∃ c ∈ s.calls, c.setup = some x) ∨ ∃ b ∈ s.others a, b.setup = x) :
        s.tasks.Reserved x.task :=
      ⟨x, (others_setups (t := s) tidy present rfl under).1, rfl⟩
    cases adds with
    | connected | listening =>
      rcases setup with call | ⟨b, member, rfl⟩
      · exact Or.inl (kept (Or.inl call))
      · rcases List.mem_cons.mp member with rfl | other
        · exact Or.inl (Adding.setup_task _ ▸ own)
        · exact Or.inl (kept (Or.inr ⟨b, other, rfl⟩))
    | unconnected | unsubscribed | inserted => exact Or.inl (kept setup)
  | _ => exact Or.inl ⟨x, setup, rfl⟩

end Claims

theorem step_dropped (stepped : s.step a = some t) : s.broker.dropped ⊆ t.broker.dropped := by
  rcases step_effect stepped with ⟨quiet, -⟩ | ⟨_, _, -, broker, -⟩ | ⟨_, _, _, _, -, delivers, -⟩
  · exact quiet.dropped
  · rw [broker]
    exact List.Subset.refl _
  · rw [delivers.dropped]
    exact List.Subset.refl _

/-- The messages of a topic's listener are messages of the topic. -/
def Tuned (s : PubSub) : Prop :=
  ∀ l ∈ s.broker.listeners, ∀ topic, l.id.topic = some topic →
    (∀ channel ∈ l.channels, channel = topic) ∧ ∀ m ∈ l.inbox, m.channel = topic

theorem step_tuned (tidy : s.Tidy) (single : s.Single) (stepped : s.step a = some t)
    (tuned : s.Tuned) : t.Tuned := by
  intro l' member topic named
  rcases (step_fates tidy single stepped).backward l' member with ⟨l, present, goes⟩ | ⟨-, new⟩
  · have before := tuned l present topic (goes.id ▸ named)
    cases goes with
    | offered channel data =>
      refine ⟨fun other inside => ?_, fun m inside => ?_⟩
      · refine before.1 other ?_
        unfold Broker.offer at inside
        split at inside
        · exact inside
        · exact inside
      · rcases Broker.mem_offer_inbox.mp inside with old | ⟨hears, rfl⟩
        · exact before.2 m old
        · simp only [Listener.hears, Bool.and_eq_true, List.contains_iff_mem] at hears
          exact before.1 channel hears.2
    | took message rest _ inbox =>
      exact ⟨before.1, fun m inside => before.2 m (inbox ▸ List.mem_cons_of_mem _ inside)⟩
    | turned _ _ turned =>
      cases turned with
      | listens channel _ own =>
        refine ⟨fun other inside => ?_, before.2⟩
        rcases List.mem_append.mp inside with old | new
        · exact before.1 other old
        · rw [List.mem_singleton.mp new]
          exact own topic named
      | _ => exact before
  · rw [new]
    simp

theorem run_tuned (h : run step initial schedule = some s) : s.Tuned := by
  have all : s.Tidy ∧ s.Single ∧ s.Tuned := by
    refine invariant (I := fun s => s.Tidy ∧ s.Single ∧ s.Tuned) (fun before stepped => ?_)
      ⟨initial_tidy, initial_single, fun l member => by cases member⟩ h
    obtain ⟨tidy, single, tuned⟩ := before
    exact ⟨((step_moves stepped).zombies tidy).1, (step_moves stepped).single tidy single,
      step_tuned tidy single stepped tuned⟩
  exact all.2.2

/-- Only what was published is held or delivered. -/
structure Held (s : PubSub) : Prop where
  inbox : ∀ l ∈ s.broker.listeners, ∀ m ∈ l.inbox, m ∈ s.published
  delivered : ∀ d ∈ s.broker.delivered, d.message ∈ s.published

theorem step_held (stepped : s.step a = some t) (held : s.Held) : t.Held := by
  rcases step_effect stepped with ⟨quiet, same⟩ | ⟨channel, data, -, broker, more⟩ |
    ⟨task, l, message, rest, -, delivers, same⟩
  · obtain ⟨f, kept, origin⟩ := quiet.listeners
    refine ⟨fun l' member m inside => ?_, fun d => ?_⟩
    · rw [same]
      rcases origin l' member with empty | ⟨l, present, rfl⟩
      · rw [empty] at inside
        cases inside
      · exact held.inbox l present m ((kept l).2.subset inside)
    · rw [quiet.delivered, same]
      exact held.delivered d
  · refine ⟨fun l' member m inside => ?_, fun d present => ?_⟩
    · rw [broker] at member
      rw [more]
      obtain ⟨l, present, rfl⟩ := List.mem_map.mp member
      rcases Broker.mem_offer_inbox.mp inside with old | ⟨-, rfl⟩
      · exact List.mem_append_left _ (held.inbox l present m old)
      · exact List.mem_append_right _ (List.mem_singleton.mpr rfl)
    · rw [broker] at present
      rw [more]
      exact List.mem_append_left _ (held.delivered d present)
  · refine ⟨fun l' member m inside => ?_, fun d present => ?_⟩
    · rw [delivers.listeners] at member
      obtain ⟨old, before, rfl⟩ := List.mem_map.mp member
      exact same ▸ held.inbox old before m ((Broker.took_inbox task old).subset inside)
    · rw [delivers.delivered, List.mem_append, List.mem_singleton] at present
      rw [same]
      rcases present with old | rfl
      · exact held.delivered d old
      · exact held.inbox l delivers.member message (delivers.inbox ▸ List.mem_cons_self)

/-- Its place among all publishes tells what was published before. -/
theorem run_held (h : run step initial schedule = some s) :
    s.Held ∧ ∀ m ∈ s.published, m.origin < s.published.length := by
  have all : s.Held ∧ s.Numbered := by
    refine invariant (I := fun s => s.Held ∧ s.Numbered)
      (fun before stepped => ⟨step_held stepped before.1, step_numbered stepped before.2⟩)
      ⟨⟨fun l member => ?_, fun d member => ?_⟩, by simp [initial], List.nodup_nil⟩ h
    · cases member
    · cases member
  exact ⟨all.1, all.2.below⟩

/-- What is published from a state on has its place after what was published there. -/
theorem run_published (h : run step s schedule = some t) :
    ∃ later, t.published = s.published ++ later ∧ ∀ m ∈ later, s.published.length ≤ m.origin := by
  refine invariant
    (I := fun t => ∃ later, t.published = s.published ++ later ∧
      ∀ m ∈ later, s.published.length ≤ m.origin) ?_ ⟨[], (List.append_nil _).symm, by simp⟩ h
  rintro u a v ⟨later, whole, places⟩ stepped
  rcases step_effect stepped with ⟨-, same⟩ | ⟨channel, data, -, -, more⟩ | ⟨_, _, _, _, -, -, same⟩
  · exact ⟨later, same.trans whole, places⟩
  · refine ⟨later ++ [⟨channel, data, u.published.length⟩], ?_, fun m member => ?_⟩
    · rw [more, whole, List.append_assoc]
    · rcases List.mem_append.mp member with old | new
      · exact places m old
      · rw [List.mem_singleton.mp new, whole]
        simp
  · exact ⟨later, same.trans whole, places⟩

end PubSub
end Propeller
