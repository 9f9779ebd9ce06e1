import PaymentProcessing.Propeller.Fates

/-! `RedisPubSub` statement by statement. A call that changes the registry goes on without its
lock: `add_subscription` counts the listener and spawns its task after the insert, and the
controls that leave the registry are sent `Shutdown`, or dropped, later. Finishing what is under
way leads to the atomic calls of `PubSub`. -/
namespace Propeller
open Relational Transition

namespace Broker
variable {α : Type}

/-- The tasks whose controls an insert replaces. -/
def replaced (b : Broker α) (channel : String) (sub : Uuid) : List TaskId :=
  (b.subscriptions.filter (·.id = sub)).flatMap (ActiveSubscription.topicTasks · channel)

/-- `topic_controls.insert` -/
def insertControl (b : Broker α) (channel : String) (sub : Uuid) (number : Nat) : Broker α :=
  let insert (entry : ActiveSubscription) : ActiveSubscription :=
    { entry with topicControls :=
        entry.topicControls.filter (·.1 ≠ channel) ++ [(channel, number)] }
  { b with subscriptions := updateWhere (·.id == sub) insert b.subscriptions }

/-- `topic_controls.remove`, with the task whose control it takes out -/
def takeControl (b : Broker α) (channel : String) (sub : Uuid) :
    Except String (List TaskId × Broker α) :=
  match b.subscriptions.find? (·.id = sub) with
  | none => .error ("subscription " ++ sub.hyphenated ++ " not found")
  | some entry =>
    if entry.topicControls.any (·.1 = channel) then
      let remove (entry : ActiveSubscription) : ActiveSubscription :=
        { entry with topicControls := entry.topicControls.filter (·.1 ≠ channel) }
      .ok (ActiveSubscription.topicTasks entry channel,
        { b with subscriptions := updateWhere (·.id == sub) remove b.subscriptions })
    else .error ("subscription " ++ sub.hyphenated ++ " is not subscribed to " ++ channel)

/-- `subscriptions.remove`, with the tasks whose controls the entry holds -/
def takeEntry (b : Broker α) (sub : Uuid) : Option (List TaskId × Broker α) :=
  (b.subscriptions.find? (·.id = sub)).map fun entry =>
    let topics : List TaskId := entry.topicControls.map fun control => ⟨sub, some control.1, control.2⟩
    (⟨sub, none, entry.control⟩ :: topics,
      { b with subscriptions := b.subscriptions.filter (·.id ≠ sub) })

/-- `fetch_add` -/
def countIn (b : Broker α) : Broker α :=
  { b with activeTopicListeners := b.activeTopicListeners + 1 }

/-- Some tasks are spawned and some told to stop, and listeners are counted in. -/
def forward (up told : TaskId → Bool) (more : Nat) (b : Broker α) : Broker α :=
  let set (l : Listener α) : Listener α :=
    { l with running := l.running || up l.id, stopping := l.stopping || told l.id }
  { b with
    listeners := b.listeners.map set
    activeTopicListeners := b.activeTopicListeners + BitVec.ofNat 64 more }

theorem finishAdd_eq (b : Broker α) (channel : String) (sub : Uuid) (number : Nat) :
    b.finishAdd channel sub number =
      (((b.insertControl channel sub number).shutdown (b.replaced channel sub)).countIn).start
        ⟨sub, some channel, number⟩ := rfl

theorem removeSubscription_eq (b : Broker α) (channel : String) (sub : Uuid) :
    b.removeSubscription channel sub =
      (b.takeControl channel sub).map fun taken => taken.2.shutdown taken.1 := by
  unfold removeSubscription takeControl
  cases b.subscriptions.find? (·.id = sub) with
  | none => rfl
  | some entry =>
    dsimp only
    split
    · rfl
    · rfl

theorem unsubscribe_eq (b : Broker α) (sub : Uuid) :
    b.unsubscribe sub = ((b.takeEntry sub).map fun taken => taken.2.shutdown taken.1).getD b := by
  unfold unsubscribe takeEntry
  cases b.subscriptions.find? (·.id = sub) with
  | none => rfl
  | some entry => rfl

section Forward
variable {b b' : Broker α} {up told : TaskId → Bool} {more : Nat}

theorem forward_update (hit : TaskId → Bool) {set : Listener α → Listener α}
    (id : ∀ l, (set l).id = l.id)
    (flags : ∀ l (up told : Bool),
      set { l with running := l.running || up, stopping := l.stopping || told } =
        { set l with running := (set l).running || up, stopping := (set l).stopping || told }) :
    ({ b with listeners := updateWhere (fun l => hit l.id) set b.listeners } : Broker α).forward up
        told more =
      { b.forward up told more with
        listeners := updateWhere (fun l => hit l.id) set (b.forward up told more).listeners } := by
  simp only [forward, updateWhere, List.map_map, Function.comp_def]
  congr 1
  refine List.map_congr_left fun l _ => ?_
  split
  · simp only [flags, id]
  · rfl

theorem forward_publish (message : Message α) :
    (b.publish message).forward up told more = (b.forward up told more).publish message := by
  simp only [forward, publish, List.map_map, Function.comp_def]
  congr 1
  refine List.map_congr_left fun l _ => ?_
  unfold offer
  dsimp only
  split
  · rfl
  · rfl

theorem forward_connect (task : TaskId) (fresh : up task = false ∧ told task = false) :
    (b.connect task).forward up told more = (b.forward up told more).connect task := by
  simp only [forward, connect, List.map_append, List.map_cons, List.map_nil, fresh.1, fresh.2,
    Bool.or_false]

theorem forward_close (task : TaskId) :
    (b.close task).forward up told more = (b.forward up told more).close task := by
  simp only [forward, close, List.filter_map, Function.comp_def]

theorem forward_finish (task : TaskId) :
    (b.finish task).forward up told more = (b.forward up told more).finish task := by
  have counter (n k : BitVec 64) : n - 1 + k = n + k - 1 := by bv_omega
  simp only [forward, finish, close, List.filter_map, Function.comp_def]
  congr 1
  split
  · exact counter _ _
  · rfl

theorem forward_listen (task : TaskId) (channel : String) :
    (b.listen task channel).forward up told more = (b.forward up told more).listen task channel :=
  forward_update (· == task) (fun _ => rfl) fun _ _ _ => rfl

theorem forward_start (task : TaskId) :
    (b.start task).forward up told more = (b.forward up told more).start task :=
  forward_update (· == task) (fun _ => rfl) fun _ _ _ => rfl

theorem forward_hangUp (task : TaskId) :
    (b.hangUp task).forward up told more = (b.forward up told more).hangUp task :=
  forward_update (· == task) (fun _ => rfl) fun _ _ _ => rfl

theorem forward_shutdown (tasks : List TaskId) :
    (b.shutdown tasks).forward up told more = (b.forward up told more).shutdown tasks :=
  forward_update tasks.contains (fun _ => rfl) fun _ _ _ => rfl

theorem forward_told (up : TaskId → Bool) (tasks sending : List TaskId) (more : Nat) :
    (b.forward up sending.contains more).shutdown tasks =
      b.forward up (tasks ++ sending).contains more := by
  simp only [forward, shutdown, updateWhere, List.map_map, Function.comp_def]
  congr 1
  refine List.map_congr_left fun l _ => ?_
  by_cases listed : l.id ∈ tasks
  · simp [listed]
  · simp [listed]

theorem forward_up (task : TaskId) :
    (b.forward up told more).start task =
      b.forward (fun other => task = other || up other) told more := by
  simp only [forward, start, modify, updateWhere, List.map_map, Function.comp_def]
  congr 1
  refine List.map_congr_left fun l _ => ?_
  by_cases same : task = l.id
  · simp [same]
  · simp [same, Ne.symm same]

theorem forward_countIn :
    (b.forward up told more).countIn = b.forward up told (more + 1) := by
  simp only [forward, countIn, BitVec.ofNat_add, BitVec.add_assoc]
  rfl

theorem countIn_forward :
    b.countIn.forward up told more = b.forward up told (more + 1) := by
  have counter (n k : BitVec 64) : n + 1 + k = n + k + 1 := by bv_omega
  rw [← forward_countIn]
  simp only [forward, countIn, counter]

theorem forward_lookup (found : b.lookup task = some l) :
    (b.forward up told more).lookup task =
      some { l with running := l.running || up l.id, stopping := l.stopping || told l.id } := by
  simp only [lookup, forward, List.find?_map, Function.comp_def]
  unfold lookup at found
  rw [found]
  rfl

theorem forward_deliver (h : b.deliver task = some b') :
    (b.forward up told more).deliver task = some (b'.forward up told more) := by
  unfold deliver at h
  split at h
  · rename_i id channels message rest stopping connected found
    have same : (b.forward up told more).dropped = b.dropped := rfl
    let rest (l : Listener α) : Listener α := { l with inbox := l.inbox.tail }
    have taken : (b.modify task rest).forward up told more =
        (b.forward up told more).modify task rest :=
      forward_update (· == task) (fun _ => rfl) fun _ _ _ => rfl
    unfold deliver
    rw [forward_lookup found]
    simp only [Bool.true_or, same]
    split at h <;> rename_i gone
    · cases h
      rw [if_pos gone, forward_finish]
    · cases h
      rw [if_neg gone, ← taken]
      rfl
  · contradiction

theorem forward_stop (h : b.stop task = some b') :
    (b.forward up told more).stop task = some (b'.forward up told more) := by
  unfold stop at h
  split at h
  · rename_i l found
    split at h
    · rename_i flags
      obtain ⟨running, stopping⟩ := Bool.and_eq_true_iff.mp flags
      cases h
      unfold stop
      rw [forward_lookup found]
      simp only [running, stopping, Bool.true_or, Bool.and_self, if_true, forward_finish]
    · contradiction
  · contradiction

theorem forward_endOfStream (h : b.endOfStream task = some b') :
    (b.forward up told more).endOfStream task = some (b'.forward up told more) := by
  unfold endOfStream at h
  split at h
  · rename_i l found
    split at h
    · rename_i flags
      simp only [Bool.and_eq_true, Bool.not_eq_true'] at flags
      cases h
      unfold endOfStream
      rw [forward_lookup found]
      simp only [flags.1.1, flags.1.2, flags.2, Bool.true_or, Bool.not_false, Bool.and_self,
        if_true, forward_finish]
    · contradiction
  · contradiction

theorem forward_receive (h : b.receive sub = some (message, b')) :
    (b.forward up told more).receive sub = some (message, b'.forward up told more) := by
  obtain ⟨rest, queue, rfl⟩ := receive_ok h
  have same : (b.forward up told more).queues sub = message :: rest := queue
  unfold receive
  rw [same]
  rfl

theorem forward_finishAdd (up : TaskId → Bool) (sending : List TaskId) (more : Nat)
    (channel : String) (sub : Uuid) (number : Nat) :
    (b.forward up sending.contains more).finishAdd channel sub number =
      (b.insertControl channel sub number).forward
        (fun other => (⟨sub, some channel, number⟩ : TaskId) = other || up other)
        (b.replaced channel sub ++ sending).contains (more + 1) := by
  rw [finishAdd_eq, ← forward_up, ← forward_countIn, ← forward_told]
  rfl

theorem forward_takeControl (channel : String) (sub : Uuid) :
    ((b.forward up told more).takeControl channel sub).map (fun taken => taken.2.shutdown taken.1) =
      (b.takeControl channel sub).map fun taken =>
        (taken.2.forward up told more).shutdown taken.1 := by
  have same : (b.forward up told more).subscriptions = b.subscriptions := rfl
  unfold takeControl
  rw [same]
  cases b.subscriptions.find? (·.id = sub) with
  | none => rfl
  | some entry =>
    dsimp only
    split
    · rfl
    · rfl

theorem forward_takeEntry (sub : Uuid) :
    (b.forward up told more).takeEntry sub =
      (b.takeEntry sub).map fun taken => (taken.1, taken.2.forward up told more) := by
  have same : (b.forward up told more).subscriptions = b.subscriptions := rfl
  unfold takeEntry
  rw [same, Option.map_map]
  rfl

end Forward

end Broker

namespace PubSub
variable {s t : PubSub} {up told : TaskId → Bool} {more : Nat}

def forward (up told : TaskId → Bool) (more : Nat) (s : PubSub) : PubSub :=
  s.withBroker (s.broker.forward up told more)

/-- Actions that change no control in the registry. -/
def Action.plain : Action → Bool
  | .advanceAdd .. | .removeSubscription .. | .unsubscribe _ => false
  | _ => true

section Forward

theorem forward_advance
    (fresh : ∀ todo, c.stage = .opening false todo → up c.task = false ∧ told c.task = false)
    (advanced : s.advance c ok = some t) :
    (s.forward up told more).advance c ok = some (t.forward up told more) := by
  have advances := advance_advances advanced
  cases advances with
  | connected todo stage =>
    simp only [advance, stage, if_true, forward, enter, withBroker,
      Broker.forward_connect c.task (fresh todo stage)]
  | unconnected todo stage =>
    simp only [advance, stage, Bool.false_eq_true, if_false]
    rfl
  | listening channel todo stage =>
    simp only [advance, stage, if_true, forward, enter, withBroker, Broker.forward_listen]
  | unsubscribed channel todo stage =>
    simp only [advance, stage, Bool.false_eq_true, if_false, forward, enter, withBroker,
      ← Broker.forward_close]
    rfl
  | spawned ok stage =>
    simp only [advance, stage, forward, enter, withBroker, Broker.forward_start]

theorem forward_advanceAdd
    (fresh : a.phase = .connecting → up a.task = false ∧ told a.task = false)
    (early : a.phase ≠ .inserting) :
    (s.forward up told more).advanceAdd a ok = (s.advanceAdd a ok).forward up told more := by
  have adds := advanceAdd_adds s a ok
  unfold advanceAdd
  split
  · rename_i phase
    simp only [forward, withBroker, Broker.forward_connect a.task (fresh phase)]
    rfl
  · rfl
  · simp only [forward, withBroker, Broker.forward_listen]
    rfl
  · simp only [forward, withBroker, Broker.forward_close]
    rfl
  · contradiction

theorem forward_step (fresh : ∀ x, s.tasks.setups x → x.connected = false →
      up x.task = false ∧ told x.task = false)
    (stepped : s.step a = some t) (plain : a.plain = true) :
    (s.forward up told more).step a = some (t.forward up told more) := by
  cases a with
  | publish channel data =>
    cases stepped
    simp only [step, forward, withBroker, Broker.forward_publish]
  | subscribe sub channels =>
    have known : (s.forward up told more).call sub = s.call sub := rfl
    simp only [step, known] at stepped ⊢
    split at stepped
    · contradiction
    · rename_i absent
      cases stepped
      rw [if_neg absent]
      rfl
  | advance sub ok =>
    obtain ⟨c, found, advanced⟩ := Option.bind_eq_some_iff.mp stepped
    refine Option.bind_eq_some_iff.mpr ⟨c, found, forward_advance (fun todo stage => ?_) advanced⟩
    obtain ⟨-, rfl⟩ := call_mem found
    exact fresh _ (setup_of_call found stage) rfl
  | addSubscription channel sub =>
    have checks : (s.forward up told more).broker.checkAdd channel sub =
        s.broker.checkAdd channel sub := rfl
    simp only [step, checks] at stepped ⊢
    split at stepped
    · cases stepped
      rfl
    · cases stepped
      rfl
  | advanceAdd | removeSubscription | unsubscribe => cases plain
  | deliver task =>
    obtain ⟨b, delivered, rfl⟩ := Option.map_eq_some_iff.mp stepped
    exact Option.map_eq_some_iff.mpr ⟨_, Broker.forward_deliver delivered, rfl⟩
  | stop task =>
    obtain ⟨b, stopped, rfl⟩ := Option.map_eq_some_iff.mp stepped
    exact Option.map_eq_some_iff.mpr ⟨_, Broker.forward_stop stopped, rfl⟩
  | hangUp task =>
    cases stepped
    simp only [step, forward, withBroker, Broker.forward_hangUp]
  | endOfStream task =>
    obtain ⟨b, ended, rfl⟩ := Option.map_eq_some_iff.mp stepped
    exact Option.map_eq_some_iff.mpr ⟨_, Broker.forward_endOfStream ended, rfl⟩
  | receive sub =>
    have owns : (s.forward up told more).owned sub = s.owned sub := rfl
    simp only [step, owns] at stepped ⊢
    split at stepped <;> rename_i owned
    · obtain ⟨⟨message, b⟩, received, rfl⟩ := Option.map_eq_some_iff.mp stepped
      rw [if_pos owned]
      exact Option.map_eq_some_iff.mpr ⟨_, Broker.forward_receive received, rfl⟩
    · contradiction
  | drop sub =>
    have owns : (s.forward up told more).owned sub = s.owned sub := rfl
    simp only [step, owns] at stepped ⊢
    split at stepped <;> rename_i owned
    · cases stepped
      rw [if_pos owned]
      rfl
    · contradiction

theorem mem_forward (up told : TaskId → Bool) (more : Nat) (member : l ∈ s.broker.listeners) :
    ({ l with running := l.running || up l.id, stopping := l.stopping || told l.id } : Listener Nat) ∈
      (s.forward up told more).broker.listeners :=
  List.mem_map_of_mem member

theorem of_mem_forward (up told : TaskId → Bool) (more : Nat)
    (member : l ∈ (s.forward up told more).broker.listeners) :
    ∃ old ∈ s.broker.listeners, old.id = l.id ∧ old.channels = l.channels := by
  obtain ⟨old, present, rfl⟩ := List.mem_map.mp member
  exact ⟨old, present, rfl, rfl⟩

theorem forward_ids : (s.forward up told more).broker.ids = s.broker.ids := by
  simp only [Broker.ids, forward, withBroker, Broker.forward, List.map_map, Function.comp_def]

theorem forward_single (single : (s.forward up told more).Single) : s.Single := by
  constructor
  · have distinct := single.distinct
    unfold Distinct at distinct
    rwa [← Broker.ids, forward_ids] at distinct
  · intro x setup idle listening
    refine single.unconnected x setup idle ?_
    rwa [forward_ids]

theorem forward_tidy (tidy : (s.forward up told more).Tidy) : s.Tidy := by
  refine ⟨tidy.distinct, tidy.topics, tidy.registered, ?_⟩
  have sane := tidy.sane
  constructor
  · intro x setup
    obtain ⟨connected, listens⟩ := sane.wired x setup
    refine ⟨fun joined => ?_, fun channel inside => (listens channel inside).imp_right ?_⟩
    · obtain ⟨l, member, same⟩ := connected joined
      obtain ⟨old, present, id, -⟩ := of_mem_forward up told more member
      exact ⟨old, present, id.trans same⟩
    · rintro ⟨l, member, same, listed⟩
      obtain ⟨old, present, id, channels⟩ := of_mem_forward up told more member
      exact ⟨old, present, id.trans same, channels ▸ listed⟩
  · intro l member reserved
    have idle := sane.waiting _ (mem_forward up told more member) reserved
    simp only [Bool.or_eq_false_iff] at idle
    exact ⟨idle.1.1, idle.2.1⟩
  · exact sane.unclaimed
  · intro l member stopping
    have unclaimed := sane.stopping _ (mem_forward up told more member) (by simp [stopping])
    exact unclaimed
  · exact sane.reserved_lt
  · exact sane.claims_lt
  · intro l member
    have below := sane.listeners_lt _ (mem_forward up told more member)
    exact below

end Forward
end PubSub

/-- A call of `add_subscription` behind its insert. -/
structure Inserted where
  task : TaskId
  counted : Bool
  deriving DecidableEq, Repr

structure Threads where
  pubsub : PubSub
  /-- The calls of `add_subscription` that have yet to spawn their task. -/
  inserted : List Inserted
  /-- The tasks whose controls are out of the registry and neither sent `Shutdown` nor dropped. -/
  sending : List TaskId

namespace Threads

inductive Action where
  /-- An action of `PubSub`; an end of `add_subscription`, a `remove_subscription` and an
  `unsubscribe` up to their change of the registry. -/
  | act (a : PubSub.Action)
  | send (task : TaskId)
  | count (task : TaskId)
  | spawn (task : TaskId)
  deriving DecidableEq, Repr

def initial : Threads := ⟨.initial, [], []⟩

def withPubSub (f : Threads) (pubsub : PubSub) : Threads := { f with pubsub := pubsub }

def take (f : Threads) (taken : List TaskId × Broker Nat) : Threads :=
  { f with pubsub := f.pubsub.withBroker taken.2, sending := taken.1 ++ f.sending }

def insert (f : Threads) (a : Adding) : Threads where
  pubsub := { f.pubsub with
    broker := f.pubsub.broker.insertControl a.channel a.task.sub a.task.number
    adding := f.pubsub.others a }
  inserted := ⟨a.task, false⟩ :: f.inserted
  sending := f.pubsub.broker.replaced a.channel a.task.sub ++ f.sending

def act (f : Threads) : PubSub.Action → Option Threads
  | .advanceAdd task ok =>
      (f.pubsub.adding.find? (·.task = task)).map fun a =>
        if a.phase = .inserting then f.insert a else f.withPubSub (f.pubsub.advanceAdd a ok)
  | .removeSubscription channel sub =>
      match f.pubsub.broker.takeControl channel sub with
      | .error _ => some f
      | .ok taken => some (f.take taken)
  | .unsubscribe sub =>
      if f.pubsub.calls.any (fun c => c.sub = sub ∧ c.stage.isOpening) ||
          f.pubsub.adding.any (·.task.sub = sub) then
        none
      else some (((f.pubsub.broker.takeEntry sub).map f.take).getD f)
  | a => (f.pubsub.step a).map f.withPubSub

def step (f : Threads) : Action → Option Threads
  | .act a => f.act a
  | .send task =>
      if task ∈ f.sending then
        some { f with
          pubsub := f.pubsub.withBroker (f.pubsub.broker.shutdown [task])
          sending := f.sending.erase task }
      else none
  | .count task =>
      if ⟨task, false⟩ ∈ f.inserted then
        some { f with
          pubsub := f.pubsub.withBroker f.pubsub.broker.countIn
          inserted := ⟨task, true⟩ :: f.inserted.erase ⟨task, false⟩ }
      else none
  | .spawn task =>
      if ⟨task, true⟩ ∈ f.inserted then
        some { f with
          pubsub := f.pubsub.withBroker (f.pubsub.broker.start task)
          inserted := f.inserted.erase ⟨task, true⟩ }
      else none

end Threads
end Propeller
