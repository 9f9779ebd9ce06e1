import PaymentProcessing.Relational
import PaymentProcessing.Uuid
import Mathlib.Data.List.Basic

/-! `RedisPubSub`: the registry of subscriptions, one Redis connection with its task for
the base channels of a subscription and one for each topic added later. A connection
buffers the messages of its channels from `SUBSCRIBE` on; its task moves them to the
event queue of the subscription. Each operation below is one step between two awaits. -/
namespace Propeller
open Relational

/-- `origin` is what the message was published for; nothing reads it. -/
structure Message (α : Type) where
  channel : String
  data : List UInt8
  origin : α
  deriving DecidableEq, Repr

/-- A task: the base task of a subscription, or the one of a key of `topic_controls`. -/
structure TaskId where
  sub : Uuid
  topic : Option String
  number : Nat
  deriving DecidableEq, Repr

structure Listener (α : Type) where
  id : TaskId
  channels : List String
  /-- Messages in the stream of the Redis connection. -/
  inbox : List (Message α)
  /-- The task was spawned. -/
  running : Bool
  /-- `Shutdown` was sent, or the control sender is gone. -/
  stopping : Bool
  /-- The Redis connection is up. -/
  connected : Bool
  deriving DecidableEq, Repr

structure ActiveSubscription where
  id : Uuid
  control : Nat
  topicControls : List (String × Nat)
  deriving DecidableEq, Repr

/-- An event put into the queue of a subscription, and the task that did it. -/
structure Delivery (α : Type) where
  task : TaskId
  message : Message α
  deriving DecidableEq, Repr

structure Broker (α : Type) where
  subscriptions : List ActiveSubscription
  listeners : List (Listener α)
  /-- Events sent and not yet received, for each subscription. -/
  queues : Uuid → List (Message α)
  /-- Subscriptions whose receiver is gone. -/
  dropped : List Uuid
  activeTopicListeners : BitVec 64
  /-- Every delivery so far; never read. -/
  delivered : List (Delivery α)

namespace Broker
variable {α : Type}

def empty : Broker α := ⟨[], [], fun _ => [], [], 0, []⟩

def offer (message : Message α) (l : Listener α) : Listener α :=
  if l.connected && l.channels.contains message.channel then { l with inbox := l.inbox ++ [message] }
  else l

/-- Redis hands the message to every connection subscribed to this channel name. -/
def publish (b : Broker α) (message : Message α) : Broker α :=
  { b with listeners := b.listeners.map (offer message) }

def modify (b : Broker α) (task : TaskId) (f : Listener α → Listener α) : Broker α :=
  { b with listeners := updateWhere (·.id == task) f b.listeners }

/-- The connection or the task is gone. -/
def close (b : Broker α) (task : TaskId) : Broker α :=
  { b with listeners := b.listeners.filter (·.id ≠ task) }

/-- `Shutdown` to the tasks whose control senders these are. -/
def shutdown (b : Broker α) (tasks : List TaskId) : Broker α :=
  let stop (l : Listener α) : Listener α := { l with stopping := true }
  { b with listeners := updateWhere (fun l => tasks.contains l.id) stop b.listeners }

/-- The registry entry that `subscribe` makes before it connects. -/
def register (b : Broker α) (sub : Uuid) (number : Nat) : Broker α :=
  { b with subscriptions := b.subscriptions ++ [⟨sub, number, []⟩] }

/-- `get_async_pubsub` -/
def connect (b : Broker α) (task : TaskId) : Broker α :=
  { b with listeners := b.listeners ++ [⟨task, [], [], false, false, true⟩] }

/-- `pubsub_conn.subscribe(channel)` -/
def listen (b : Broker α) (task : TaskId) (channel : String) : Broker α :=
  b.modify task fun l => { l with channels := l.channels ++ [channel] }

/-- `tokio::spawn` of the task -/
def start (b : Broker α) (task : TaskId) : Broker α :=
  b.modify task fun l => { l with running := true }

/-- The checks of `add_subscription` ahead of its connection. -/
def checkAdd (b : Broker α) (channel : String) (sub : Uuid) : Except String Unit :=
  match b.subscriptions.find? (·.id = sub) with
  | none => .error ("subscription " ++ sub.hyphenated ++ " not found")
  | some entry =>
    if entry.topicControls.any (·.1 = channel) then
      .error ("subscription " ++ sub.hyphenated ++ " already subscribed to " ++ channel)
    else .ok ()

/-- The tasks that an entry controls under this topic. -/
def ActiveSubscription.topicTasks (entry : ActiveSubscription) (channel : String) : List TaskId :=
  (entry.topicControls.filter (·.1 = channel)).map fun control => ⟨entry.id, some control.1, control.2⟩

/-- The end of `add_subscription`. A control that the insert replaces is dropped. -/
def finishAdd (b : Broker α) (channel : String) (sub : Uuid) (number : Nat) : Broker α :=
  let replaced := (b.subscriptions.filter (·.id = sub)).flatMap
    (ActiveSubscription.topicTasks · channel)
  let insert (entry : ActiveSubscription) : ActiveSubscription :=
    { entry with topicControls :=
        entry.topicControls.filter (·.1 ≠ channel) ++ [(channel, number)] }
  { (b.shutdown replaced).start ⟨sub, some channel, number⟩ with
    subscriptions := updateWhere (·.id == sub) insert b.subscriptions
    activeTopicListeners := b.activeTopicListeners + 1 }

def removeSubscription (b : Broker α) (channel : String) (sub : Uuid) : Except String (Broker α) :=
  match b.subscriptions.find? (·.id = sub) with
  | none => .error ("subscription " ++ sub.hyphenated ++ " not found")
  | some entry =>
    if entry.topicControls.any (·.1 = channel) then
      let remove (entry : ActiveSubscription) : ActiveSubscription :=
        { entry with topicControls := entry.topicControls.filter (·.1 ≠ channel) }
      .ok { b.shutdown (ActiveSubscription.topicTasks entry channel) with
        subscriptions := updateWhere (·.id == sub) remove b.subscriptions }
    else .error ("subscription " ++ sub.hyphenated ++ " is not subscribed to " ++ channel)

def unsubscribe (b : Broker α) (sub : Uuid) : Broker α :=
  match b.subscriptions.find? (·.id = sub) with
  | none => b
  | some entry =>
    let topics : List TaskId := entry.topicControls.map fun control => ⟨sub, some control.1, control.2⟩
    { b.shutdown (⟨sub, none, entry.control⟩ :: topics) with
      subscriptions := b.subscriptions.filter (·.id ≠ sub) }

/-- A task returns; the task of a topic counts itself out. -/
def finish (b : Broker α) (task : TaskId) : Broker α :=
  { b.close task with
    activeTopicListeners :=
      if task.topic.isSome then b.activeTopicListeners - 1 else b.activeTopicListeners }

def lookup (b : Broker α) (task : TaskId) : Option (Listener α) := b.listeners.find? (·.id = task)

/-- A task takes the next message and sends it to the event queue. -/
def deliver (b : Broker α) (task : TaskId) : Option (Broker α) :=
  match b.lookup task with
  | some ⟨_, _, message :: _, true, _, _⟩ =>
      if b.dropped.contains task.sub then some (b.finish task)
      else some { b.modify task fun l => { l with inbox := l.inbox.tail } with
        queues := fun id => if id = task.sub then b.queues id ++ [message] else b.queues id
        delivered := b.delivered ++ [⟨task, message⟩] }
  | _ => none

/-- A task sees its shutdown. -/
def stop (b : Broker α) (task : TaskId) : Option (Broker α) :=
  match b.lookup task with
  | some l => if l.running && l.stopping then some (b.finish task) else none
  | none => none

/-- The Redis connection of a task ends. -/
def hangUp (b : Broker α) (task : TaskId) : Broker α :=
  b.modify task fun l => { l with connected := false }

/-- A task sees the end of its message stream. -/
def endOfStream (b : Broker α) (task : TaskId) : Option (Broker α) :=
  match b.lookup task with
  | some l => if l.running && !l.connected && l.inbox.isEmpty then some (b.finish task) else none
  | none => none

/-- `event_rx.recv()` -/
def receive (b : Broker α) (sub : Uuid) : Option (Message α × Broker α) :=
  match b.queues sub with
  | [] => none
  | message :: rest =>
      some (message, { b with queues := fun id => if id = sub then rest else b.queues id })

def drop (b : Broker α) (sub : Uuid) : Broker α := { b with dropped := sub :: b.dropped }

/-- A step of one of the broker's tasks, or at the receiver of a subscription. -/
inductive Turn where
  | deliver (task : TaskId)
  | stop (task : TaskId)
  | hangUp (task : TaskId)
  | endOfStream (task : TaskId)
  | receive (sub : Uuid)
  | drop (sub : Uuid)

/-- What these steps do, under the labels that a machine has for them. -/
inductive Turns {A : Type} (label : Turn → A) (b : Broker α) : A → Broker α → Prop where
  | deliver (task b') : b.deliver task = some b' → Turns label b (label (.deliver task)) b'
  | stop (task b') : b.stop task = some b' → Turns label b (label (.stop task)) b'
  | hangUp (task) : Turns label b (label (.hangUp task)) (b.hangUp task)
  | endOfStream (task b') : b.endOfStream task = some b' →
      Turns label b (label (.endOfStream task)) b'
  | receive (sub message b') : b.receive sub = some (message, b') →
      Turns label b (label (.receive sub)) b'
  | drop (sub) : Turns label b (label (.drop sub)) (b.drop sub)

instance (b : Broker α) (sub : Uuid) : Decidable (sub ∈ b.dropped) :=
  decidable_of_iff (b.dropped.contains sub) List.contains_iff_mem

/-- A running task returns. -/
structure Finishes (b : Broker α) (task : TaskId) (l : Listener α) (b' : Broker α) : Prop where
  member : l ∈ b.listeners
  id : l.id = task
  running : l.running = true
  state : b' = b.finish task

/-- The head of the inbox of one task is taken. -/
def took (task : TaskId) (l : Listener α) : Listener α :=
  if l.id == task then { l with inbox := l.inbox.tail } else l

@[simp] theorem took_id (task : TaskId) (l : Listener α) : (took task l).id = l.id := by
  unfold took
  split
  · rfl
  · rfl

theorem took_inbox (task : TaskId) (l : Listener α) : (took task l).inbox.Sublist l.inbox := by
  unfold took
  split
  · exact List.tail_sublist _
  · exact List.Sublist.refl _

/-- A task puts the head of its inbox into the queue. -/
structure Delivers (b : Broker α) (task : TaskId) (l : Listener α) (message : Message α)
    (rest : List (Message α)) (b' : Broker α) : Prop where
  member : l ∈ b.listeners
  id : l.id = task
  inbox : l.inbox = message :: rest
  owned : task.sub ∉ b.dropped
  listeners : b'.listeners = b.listeners.map (took task)
  subscriptions : b'.subscriptions = b.subscriptions
  delivered : b'.delivered = b.delivered ++ [⟨task, message⟩]
  queues : ∀ sub, b'.queues sub = b.queues sub ++ if task.sub = sub then [message] else []
  dropped : b'.dropped = b.dropped

section Operations
variable {b b' : Broker α}

theorem removeSubscription_ok (ok : b.removeSubscription channel sub = .ok b') :
    ∃ entry ∈ b.subscriptions, entry.id = sub ∧
      let remove (entry : ActiveSubscription) : ActiveSubscription :=
        { entry with topicControls := entry.topicControls.filter (·.1 ≠ channel) }
      b' = { b.shutdown (ActiveSubscription.topicTasks entry channel) with
        subscriptions := updateWhere (·.id == sub) remove b.subscriptions } := by
  unfold removeSubscription at ok
  split at ok
  · contradiction
  · rename_i entry found
    split at ok
    · cases ok
      exact ⟨entry, List.mem_of_find?_eq_some found, by simpa using List.find?_some found, rfl⟩
    · contradiction

theorem receive_ok (h : b.receive sub = some (message, b')) :
    ∃ rest, b.queues sub = message :: rest ∧
      b' = { b with queues := fun id => if id = sub then rest else b.queues id } := by
  unfold receive at h
  split at h
  · contradiction
  · rename_i rest queue
    cases h
    exact ⟨rest, queue, rfl⟩

theorem lookup_mem (h : b.lookup task = some l) : l ∈ b.listeners ∧ l.id = task :=
  ⟨List.mem_of_find?_eq_some h, by simpa using List.find?_some h⟩

theorem stop_finishes (h : b.stop task = some b') :
    ∃ l, Finishes b task l b' ∧ l.stopping = true := by
  unfold stop at h
  split at h
  · rename_i l found
    obtain ⟨member, same⟩ := lookup_mem found
    split at h
    · rename_i told
      cases h
      simp only [Bool.and_eq_true] at told
      exact ⟨l, ⟨member, same, told.1, rfl⟩, told.2⟩
    · contradiction
  · contradiction

theorem endOfStream_finishes (h : b.endOfStream task = some b') : ∃ l, Finishes b task l b' := by
  unfold endOfStream at h
  split at h
  · rename_i l found
    obtain ⟨member, same⟩ := lookup_mem found
    split at h
    · rename_i ended
      cases h
      simp only [Bool.and_eq_true] at ended
      exact ⟨l, member, same, ended.1.1, rfl⟩
    · contradiction
  · contradiction

/-- With nobody to receive, the send fails and the task returns. -/
theorem deliver_cases (h : b.deliver task = some b') :
    task.sub ∈ b.dropped ∧ (∃ l, Finishes b task l b') ∨
    ∃ l message rest, Delivers b task l message rest b' := by
  unfold deliver at h
  split at h
  · rename_i message rest _ _ found
    obtain ⟨member, same⟩ := lookup_mem found
    split at h
    · rename_i gone
      cases h
      exact Or.inl ⟨by simpa using gone, _, member, same, rfl, rfl⟩
    · rename_i owned
      cases h
      have owned : task.sub ∉ b.dropped := by simpa using owned
      refine Or.inr ⟨_, message, rest, member, same, rfl, owned, rfl, rfl, rfl, fun id => ?_, rfl⟩
      by_cases named : task.sub = id
      · simp [named]
      · simp [named, Ne.symm named]
  · contradiction

theorem unsubscribe_subscriptions (b : Broker α) (sub : Uuid) :
    (b.unsubscribe sub).subscriptions = b.subscriptions.filter (·.id ≠ sub) := by
  unfold unsubscribe
  split
  · rename_i missing
    refine (List.filter_eq_self.mpr ?_).symm
    intro entry member
    simpa using List.find?_eq_none.mp missing entry member
  · rfl

theorem Finishes.subscriptions (h : Finishes b task l b') : b'.subscriptions = b.subscriptions := by
  rw [h.state]
  rfl

theorem Finishes.queues (h : Finishes b task l b') : b'.queues = b.queues := by
  rw [h.state]
  rfl

theorem Finishes.dropped (h : Finishes b task l b') : b'.dropped = b.dropped := by
  rw [h.state]
  rfl

theorem receive_subscriptions (h : b.receive sub = some (message, b')) :
    b'.subscriptions = b.subscriptions := by
  obtain ⟨rest, -, rfl⟩ := receive_ok h
  rfl

/-- What a turn comes to: a task returns or delivers, or something happens at one end of a stream. -/
inductive Outcome {A : Type} (label : Turn → A) (b : Broker α) : A → Broker α → Prop where
  | finished (a task l b') : Finishes b task l b' → Outcome label b a b'
  | delivered (task l message rest b') : Delivers b task l message rest b' →
      Outcome label b (label (.deliver task)) b'
  | hungUp (task) : Outcome label b (label (.hangUp task)) (b.hangUp task)
  | received (sub message b') : b.receive sub = some (message, b') →
      Outcome label b (label (.receive sub)) b'
  | dropped (sub) : Outcome label b (label (.drop sub)) (b.drop sub)

section Turns
variable {A : Type} {label : Turn → A} {a : A}

theorem Turns.outcome (h : Turns label b a b') : Outcome label b a b' := by
  cases h with
  | deliver task _ delivered =>
    rcases deliver_cases delivered with ⟨-, l, finishes⟩ | ⟨l, message, rest, delivers⟩
    · exact .finished _ task l _ finishes
    · exact .delivered task l message rest _ delivers
  | stop task _ stopped =>
    obtain ⟨l, finishes, -⟩ := stop_finishes stopped
    exact .finished _ task l _ finishes
  | endOfStream task _ ended =>
    obtain ⟨l, finishes⟩ := endOfStream_finishes ended
    exact .finished _ task l _ finishes
  | hangUp task => exact .hungUp task
  | receive sub message _ received => exact .received sub message _ received
  | drop sub => exact .dropped sub

theorem Turns.subscriptions (h : Turns label b a b') : b'.subscriptions = b.subscriptions := by
  cases h.outcome with
  | finished task l _ _ finishes => exact finishes.subscriptions
  | delivered task l message rest _ delivers => exact delivers.subscriptions
  | received sub message _ received => exact receive_subscriptions received
  | hungUp | dropped => rfl

/-- Only the owner of a subscription gives its receiver up. -/
theorem Turns.dropped (h : Turns label b a b') :
    b'.dropped = b.dropped ∨ ∃ sub, a = label (.drop sub) ∧ b'.dropped = sub :: b.dropped := by
  cases h.outcome with
  | finished task l _ _ finishes => exact Or.inl finishes.dropped
  | delivered task l message rest _ delivers => exact Or.inl delivers.dropped
  | hungUp task => exact Or.inl rfl
  | received sub message _ received =>
    obtain ⟨rest, -, rfl⟩ := receive_ok received
    exact Or.inl rfl
  | dropped sub => exact Or.inr ⟨sub, rfl, rfl⟩

end Turns

theorem removeSubscription_ids (h : b.removeSubscription channel sub = .ok b') :
    b'.subscriptions.map ActiveSubscription.id = b.subscriptions.map ActiveSubscription.id := by
  obtain ⟨entry, -, -, rfl⟩ := removeSubscription_ok h
  exact map_updateWhere _ fun _ => rfl

theorem finishAdd_ids (b : Broker α) (channel : String) (sub : Uuid) (number : Nat) :
    (b.finishAdd channel sub number).subscriptions.map ActiveSubscription.id =
      b.subscriptions.map ActiveSubscription.id :=
  map_updateWhere _ fun _ => rfl

end Operations

/-- Where channels and messages come from: each task listens only to channels it may
hear, and every message it holds or has delivered was sent to one of them. -/
structure Sound (hears : TaskId → String → Prop) (sent : Message α → Prop) (b : Broker α) : Prop where
  channels : ∀ l ∈ b.listeners, ∀ channel ∈ l.channels, hears l.id channel
  inbox : ∀ l ∈ b.listeners, ∀ m ∈ l.inbox, m.channel ∈ l.channels ∧ sent m
  delivered : ∀ d ∈ b.delivered, hears d.task d.message.channel ∧ sent d.message

section Sound
variable {b b' : Broker α} {hears hears' : TaskId → String → Prop} {sent sent' : Message α → Prop}

theorem empty_sound : (empty : Broker α).Sound hears sent := by
  constructor <;> simp [empty]

theorem Sound.mono (h : b.Sound hears sent)
    (more : ∀ task channel, hears task channel → hears' task channel) :
    b.Sound hears' sent :=
  ⟨fun l member channel inside => more _ _ (h.channels l member channel inside), h.inbox,
    fun d member => ⟨more _ _ (h.delivered d member).1, (h.delivered d member).2⟩⟩

/-- The registry, the queues and the counter play no part. -/
theorem Sound.congr (h : b.Sound hears sent) (listeners : b'.listeners ⊆ b.listeners)
    (delivered : b'.delivered = b.delivered) : b'.Sound hears sent :=
  ⟨fun l member => h.channels l (listeners member), fun l member => h.inbox l (listeners member),
    fun d member => h.delivered d (delivered ▸ member)⟩

/-- Changes that leave a task's channels and add nothing to its inbox. -/
theorem Sound.modify (h : b.Sound hears sent) {f : Listener α → Listener α}
    (id : ∀ l, (f l).id = l.id) (channels : ∀ l, (f l).channels = l.channels)
    (inbox : ∀ l ∈ b.listeners, hit l = true → (f l).inbox ⊆ l.inbox) :
    ({ b with listeners := updateWhere hit f b.listeners } : Broker α).Sound hears sent := by
  refine ⟨?_, ?_, h.delivered⟩
  · intro l member channel inside
    obtain ⟨old, present, rfl⟩ := mem_updateWhere.mp member
    split at inside <;> rename_i selected
    · rw [channels] at inside
      rw [if_pos selected, id]
      exact h.channels old present channel inside
    · rw [if_neg selected]
      exact h.channels old present channel inside
  · intro l member m inside
    obtain ⟨old, present, rfl⟩ := mem_updateWhere.mp member
    split at inside <;> rename_i selected
    · rw [if_pos selected, channels]
      exact h.inbox old present m (inbox old present selected inside)
    · rw [if_neg selected]
      exact h.inbox old present m inside

theorem Sound.publish (h : b.Sound hears sent) (new : sent message) :
    (b.publish message).Sound hears sent := by
  have offered (l : Listener α) :
      (offer message l).id = l.id ∧ (offer message l).channels = l.channels ∧
      ∀ m ∈ (offer message l).inbox, m ∈ l.inbox ∨ m = message ∧ message.channel ∈ l.channels := by
    unfold offer
    split
    · rename_i subscribed
      have listed : message.channel ∈ l.channels := by simp at subscribed; exact subscribed.2
      exact ⟨rfl, rfl, fun m member => by
        cases List.mem_append.mp member with
        | inl old => exact Or.inl old
        | inr new => exact Or.inr ⟨List.mem_singleton.mp new, listed⟩⟩
    · exact ⟨rfl, rfl, fun m member => Or.inl member⟩
  refine ⟨?_, ?_, h.delivered⟩
  · intro l member channel inside
    obtain ⟨old, present, rfl⟩ := List.mem_map.mp member
    obtain ⟨id, channels, -⟩ := offered old
    rw [channels] at inside
    rw [id]
    exact h.channels old present channel inside
  · intro l member m inside
    obtain ⟨old, present, rfl⟩ := List.mem_map.mp member
    obtain ⟨-, channels, inbox⟩ := offered old
    rw [channels]
    rcases inbox m inside with before | ⟨rfl, listed⟩
    · exact h.inbox old present m before
    · exact ⟨listed, new⟩

theorem Sound.connect (h : b.Sound hears sent) : (b.connect task).Sound hears sent := by
  refine ⟨?_, ?_, h.delivered⟩
  · intro l member
    cases List.mem_append.mp member with
    | inl old => exact h.channels l old
    | inr new =>
      rw [List.mem_singleton.mp new]
      simp
  · intro l member
    cases List.mem_append.mp member with
    | inl old => exact h.inbox l old
    | inr new =>
      rw [List.mem_singleton.mp new]
      simp

theorem Sound.listen (h : b.Sound hears sent) (heard : hears task channel) :
    (b.listen task channel).Sound hears sent := by
  refine ⟨?_, ?_, h.delivered⟩
  · intro l member other inside
    obtain ⟨old, present, rfl⟩ := mem_updateWhere.mp member
    split at inside <;> rename_i selected
    · rw [if_pos selected]
      cases List.mem_append.mp inside with
      | inl before => exact h.channels old present other before
      | inr new =>
        have same : old.id = task := by simpa using selected
        rw [List.mem_singleton.mp new]
        exact same ▸ heard
    · rw [if_neg selected]
      exact h.channels old present other inside
  · intro l member m inside
    obtain ⟨old, present, rfl⟩ := mem_updateWhere.mp member
    split at inside <;> rename_i selected
    · rw [if_pos selected]
      obtain ⟨listed, published⟩ := h.inbox old present m inside
      exact ⟨List.mem_append_left _ listed, published⟩
    · rw [if_neg selected]
      exact h.inbox old present m inside

theorem Sound.start (h : b.Sound hears sent) : (b.start task).Sound hears sent :=
  h.modify (fun _ => rfl) (fun _ => rfl) fun _ _ _ => List.Subset.refl _

theorem Sound.shutdown (h : b.Sound hears sent) : (b.shutdown tasks).Sound hears sent :=
  h.modify (fun _ => rfl) (fun _ => rfl) fun _ _ _ => List.Subset.refl _

theorem Sound.hangUp (h : b.Sound hears sent) : (b.hangUp task).Sound hears sent :=
  h.modify (fun _ => rfl) (fun _ => rfl) fun _ _ _ => List.Subset.refl _

theorem Sound.finishAdd (h : b.Sound hears sent) :
    (b.finishAdd channel sub number).Sound hears sent :=
  h.shutdown.start.congr (List.Subset.refl _) rfl

theorem Sound.removeSubscription (h : b.Sound hears sent)
    (ok : b.removeSubscription channel sub = .ok b') :
    b'.Sound hears sent := by
  obtain ⟨entry, -, -, rfl⟩ := removeSubscription_ok ok
  exact h.shutdown.congr (List.Subset.refl _) rfl

theorem Sound.unsubscribe (h : b.Sound hears sent) : (b.unsubscribe sub).Sound hears sent := by
  unfold Broker.unsubscribe
  split
  · exact h
  · exact h.shutdown.congr (List.Subset.refl _) rfl

theorem Sound.close (h : b.Sound hears sent) : (b.close task).Sound hears sent :=
  h.congr (List.filter_sublist.subset) rfl

theorem Sound.finish (h : b.Sound hears sent) : (b.finish task).Sound hears sent :=
  h.close.congr (List.Subset.refl _) rfl

theorem Sound.stop (h : b.Sound hears sent) (stopped : b.stop task = some b') :
    b'.Sound hears sent := by
  obtain ⟨l, finishes, -⟩ := stop_finishes stopped
  exact finishes.state ▸ h.finish

theorem Sound.endOfStream (h : b.Sound hears sent) (ended : b.endOfStream task = some b') :
    b'.Sound hears sent := by
  obtain ⟨l, finishes⟩ := endOfStream_finishes ended
  exact finishes.state ▸ h.finish

/-- A delivery moves the head of one inbox. -/
theorem Sound.deliver (h : b.Sound hears sent) (delivers : b.deliver task = some b') :
    b'.Sound hears sent := by
  rcases deliver_cases delivers with ⟨-, l, finishes⟩ | ⟨l, message, rest, delivers⟩
  · exact finishes.state ▸ h.finish
  · have kept : (b.modify task fun l => { l with inbox := l.inbox.tail }).Sound hears sent :=
      h.modify (fun _ => rfl) (fun _ => rfl) fun l _ _ => (List.tail_sublist l.inbox).subset
    have listeners : b'.listeners =
        (b.modify task fun l => { l with inbox := l.inbox.tail }).listeners := delivers.listeners
    obtain ⟨listed, published⟩ := h.inbox l delivers.member message
      (delivers.inbox ▸ List.mem_cons_self)
    refine ⟨listeners ▸ kept.channels, listeners ▸ kept.inbox, ?_⟩
    intro d inside
    rw [delivers.delivered] at inside
    cases List.mem_append.mp inside with
    | inl before => exact h.delivered d before
    | inr new =>
      rw [List.mem_singleton.mp new]
      exact ⟨delivers.id ▸ h.channels l delivers.member _ listed, published⟩

theorem Turns.sound {A : Type} {label : Turn → A} {a : A} (h : Turns label b a b')
    (before : b.Sound hears sent) : b'.Sound hears sent := by
  cases h with
  | deliver task _ delivered => exact before.deliver delivered
  | stop task _ stopped => exact before.stop stopped
  | hangUp task => exact before.hangUp
  | endOfStream task _ ended => exact before.endOfStream ended
  | receive sub message _ received =>
    obtain ⟨rest, -, rfl⟩ := receive_ok received
    exact before.congr (List.Subset.refl _) rfl
  | drop sub => exact before.congr (List.Subset.refl _) rfl

end Sound
end Broker
end Propeller
