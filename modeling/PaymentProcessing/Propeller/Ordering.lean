import PaymentProcessing.Transition
import PaymentProcessing.Propeller.PubSub

/-! The order of events in the queue of a subscription. Each Redis connection keeps the
order of publication, but two tasks of one subscription may listen to the same channel: the
task of a removed topic lives on until it sees its shutdown. -/
namespace Propeller
open Relational Transition

/-- Messages of one channel. -/
def onChannel {α : Type} (channel : String) (messages : List (Message α)) : List (Message α) :=
  messages.filter (·.channel = channel)

section Channel
variable {α : Type} {messages published : List (Message α)} {message : Message α}

@[simp] theorem onChannel_nil : onChannel channel ([] : List (Message α)) = [] := rfl

@[simp] theorem onChannel_append (left right : List (Message α)) :
    onChannel channel (left ++ right) = onChannel channel left ++ onChannel channel right :=
  List.filter_append ..

theorem onChannel_other (other : message.channel ≠ channel) : onChannel channel [message] = [] := by
  simp [onChannel, other]

theorem onChannel_eq_nil (none : ∀ m ∈ messages, m.channel ≠ channel) :
    onChannel channel messages = [] := by
  simpa [onChannel, List.filter_eq_nil_iff] using none

theorem onChannel_sublist (channel : String) (h : messages.Sublist published) :
    (onChannel channel messages).Sublist (onChannel channel published) := h.filter _

end Channel

/-- The connection takes in messages of this channel. -/
def Listener.hears {α : Type} (l : Listener α) (channel : String) : Bool :=
  l.connected && l.channels.contains channel

namespace Broker
variable {α : Type}

/-- What went into the queue of a subscription, in this order. -/
def enqueued (b : Broker α) (sub : Uuid) : List (Message α) :=
  (b.delivered.filter (·.task.sub = sub)).map Delivery.message

/-- Every queue holds published messages in the order of publication, what the tasks still
hold comes after that, and no two tasks of a subscription hold messages of one channel. -/
structure Fed (published : List (Message α)) (b : Broker α) : Prop where
  queued : ∀ sub channel,
    (onChannel channel (b.enqueued sub)).Sublist (onChannel channel published)
  pending : ∀ l ∈ b.listeners, l.id.sub ∉ b.dropped → ∀ channel,
    (onChannel channel (b.enqueued l.id.sub) ++ onChannel channel l.inbox).Sublist
      (onChannel channel published)
  apart : ∀ l ∈ b.listeners, ∀ l' ∈ b.listeners, l ≠ l' → l.id.sub = l'.id.sub →
    l.id.sub ∉ b.dropped → ∀ m ∈ l.inbox, ∀ m' ∈ l'.inbox, m.channel ≠ m'.channel

/-- Steps that deliver nothing: tasks come and go, and messages are lost or received. -/
structure Quiet (b b' : Broker α) : Prop where
  delivered : b'.delivered = b.delivered
  queues : ∀ sub, b'.queues sub <:+ b.queues sub
  dropped : b.dropped ⊆ b'.dropped
  listeners : ∃ f : Listener α → Listener α,
    (∀ l, (f l).id = l.id ∧ (f l).inbox.Sublist l.inbox) ∧
    ∀ l' ∈ b'.listeners, l'.inbox = [] ∨ ∃ l ∈ b.listeners, l' = f l

section Quiet
variable {b b' b'' : Broker α} {published : List (Message α)}

theorem Quiet.same (delivered : b'.delivered = b.delivered)
    (queues : ∀ sub, b'.queues sub <:+ b.queues sub) (dropped : b.dropped ⊆ b'.dropped)
    (listeners : b'.listeners ⊆ b.listeners) : Quiet b b' :=
  ⟨delivered, queues, dropped, fun l => l, fun _ => ⟨rfl, List.Sublist.refl _⟩,
    fun l' member => Or.inr ⟨l', listeners member, rfl⟩⟩

theorem Quiet.aside (delivered : b'.delivered = b.delivered) (queues : b'.queues = b.queues)
    (dropped : b'.dropped = b.dropped) (listeners : b'.listeners = b.listeners) : Quiet b b' :=
  .same delivered (fun sub => queues ▸ List.suffix_refl (b.queues sub))
    (dropped ▸ List.Subset.refl b.dropped) (listeners ▸ List.Subset.refl b.listeners)

theorem Quiet.trans (h : Quiet b b') (h' : Quiet b' b'') : Quiet b b'' := by
  obtain ⟨f, kept, from_⟩ := h.listeners
  obtain ⟨g, kept', from'⟩ := h'.listeners
  refine ⟨h'.delivered.trans h.delivered, fun sub => (h'.queues sub).trans (h.queues sub),
    List.Subset.trans h.dropped h'.dropped, fun l => g (f l), ?_, ?_⟩
  · intro l
    exact ⟨(kept' (f l)).1.trans (kept l).1, (kept' (f l)).2.trans (kept l).2⟩
  · intro l' member
    rcases from' l' member with empty | ⟨l, present, rfl⟩
    · exact Or.inl empty
    · rcases from_ l present with empty | ⟨old, inside, rfl⟩
      · refine Or.inl (List.sublist_nil.mp ?_)
        exact empty ▸ (kept' l).2
      · exact Or.inr ⟨old, inside, rfl⟩

theorem Quiet.update (b : Broker α) (hit : Listener α → Bool) {set : Listener α → Listener α}
    (id : ∀ l, (set l).id = l.id) (inbox : ∀ l, (set l).inbox = l.inbox) :
    Quiet b { b with listeners := updateWhere hit set b.listeners } := by
  refine ⟨rfl, fun _ => List.suffix_refl _, List.Subset.refl _,
    fun l => if hit l then set l else l, ?_, ?_⟩
  · intro l
    dsimp only
    split
    · exact ⟨id l, inbox l ▸ List.Sublist.refl _⟩
    · exact ⟨rfl, List.Sublist.refl _⟩
  · intro l' member
    exact Or.inr (mem_updateWhere.mp member)

theorem quiet_connect (b : Broker α) (task : TaskId) : Quiet b (b.connect task) := by
  refine ⟨rfl, fun _ => List.suffix_refl _, List.Subset.refl _, fun l => l,
    fun _ => ⟨rfl, List.Sublist.refl _⟩, ?_⟩
  intro l' member
  rcases List.mem_append.mp member with old | new
  · exact Or.inr ⟨l', old, rfl⟩
  · exact Or.inl (by rw [List.mem_singleton.mp new])

theorem quiet_close (b : Broker α) (task : TaskId) : Quiet b (b.close task) :=
  .same rfl (fun _ => List.suffix_refl _) (List.Subset.refl _) List.filter_sublist.subset

theorem quiet_finish (b : Broker α) (task : TaskId) : Quiet b (b.finish task) :=
  (quiet_close b task).trans (.aside rfl rfl rfl rfl)

theorem quiet_drop (b : Broker α) (sub : Uuid) : Quiet b (b.drop sub) :=
  .same rfl (fun _ => List.suffix_refl _) (List.subset_cons_self ..) (List.Subset.refl _)

theorem quiet_shutdown (b : Broker α) (tasks : List TaskId) : Quiet b (b.shutdown tasks) :=
  .update b _ (fun _ => rfl) fun _ => rfl

theorem quiet_listen (b : Broker α) (task : TaskId) (channel : String) :
    Quiet b (b.listen task channel) :=
  .update b _ (fun _ => rfl) fun _ => rfl

theorem quiet_start (b : Broker α) (task : TaskId) : Quiet b (b.start task) :=
  .update b _ (fun _ => rfl) fun _ => rfl

theorem quiet_hangUp (b : Broker α) (task : TaskId) : Quiet b (b.hangUp task) :=
  .update b _ (fun _ => rfl) fun _ => rfl

theorem quiet_finishAdd (b : Broker α) (channel : String) (sub : Uuid) (number : Nat) :
    Quiet b (b.finishAdd channel sub number) :=
  ((quiet_shutdown b _).trans (quiet_start _ _)).trans (.aside rfl rfl rfl rfl)

theorem quiet_removeSubscription (ok : b.removeSubscription channel sub = .ok b') : Quiet b b' := by
  obtain ⟨entry, -, -, rfl⟩ := removeSubscription_ok ok
  exact (quiet_shutdown b _).trans (.aside rfl rfl rfl rfl)

theorem quiet_unsubscribe (b : Broker α) (sub : Uuid) : Quiet b (b.unsubscribe sub) := by
  unfold unsubscribe
  split
  · exact .aside rfl rfl rfl rfl
  · exact (quiet_shutdown b _).trans (.aside rfl rfl rfl rfl)

theorem Finishes.quiet (h : Finishes b task l b') : Quiet b b' := h.state ▸ quiet_finish b task

theorem quiet_receive (h : b.receive sub = some (message, b')) : Quiet b b' := by
  obtain ⟨rest, queue, rfl⟩ := receive_ok h
  refine .same rfl (fun id => ?_) (List.Subset.refl _) (List.Subset.refl _)
  dsimp only
  split <;> rename_i same
  · exact same ▸ queue ▸ List.suffix_cons message rest
  · exact List.suffix_refl _

theorem Quiet.enqueued (h : Quiet b b') (sub : Uuid) : b'.enqueued sub = b.enqueued sub := by
  rw [Broker.enqueued, h.delivered, ← Broker.enqueued]

theorem Fed.quiet (fed : b.Fed published) (h : Quiet b b') : b'.Fed published := by
  obtain ⟨f, kept, from_⟩ := h.listeners
  have live {sub} (absent : sub ∉ b'.dropped) : sub ∉ b.dropped := fun inside =>
    absent (h.dropped inside)
  refine ⟨?_, ?_, ?_⟩
  · intro sub channel
    exact h.enqueued sub ▸ fed.queued sub channel
  · intro l' member owned channel
    rw [h.enqueued]
    rcases from_ l' member with empty | ⟨l, present, rfl⟩
    · rw [empty, onChannel_nil, List.append_nil]
      exact fed.queued _ channel
    · obtain ⟨same, less⟩ := kept l
      rw [same] at owned ⊢
      have more := fed.pending l present (live owned) channel
      exact ((List.Sublist.refl _).append (onChannel_sublist channel less)).trans more
  · intro l member l' member' other siblings owned m inside m' inside'
    rcases from_ l member with empty | ⟨old, present, rfl⟩
    · rw [empty] at inside
      contradiction
    rcases from_ l' member' with empty | ⟨old', present', rfl⟩
    · rw [empty] at inside'
      contradiction
    obtain ⟨same, less⟩ := kept old
    obtain ⟨same', less'⟩ := kept old'
    rw [same] at owned siblings
    rw [same'] at siblings
    have distinct : old ≠ old' := fun equal => other (congrArg f equal)
    exact fed.apart old present old' present' distinct siblings (live owned) m (less.subset inside)
      m' (less'.subset inside')

end Quiet

section Delivers
variable {b b' : Broker α} {published : List (Message α)} {l : Listener α}

theorem Delivers.enqueued (h : Delivers b task l message rest b') (sub : Uuid) :
    b'.enqueued sub = b.enqueued sub ++ if task.sub = sub then [message] else [] := by
  unfold Broker.enqueued
  rw [h.delivered, List.filter_append, List.map_append]
  by_cases same : task.sub = sub
  · simp [same]
  · simp [same]

theorem Delivers.untouched (h : Delivers b task l message rest b') (other : task.sub ≠ sub) :
    b'.enqueued sub = b.enqueued sub := by
  rw [h.enqueued, if_neg other, List.append_nil]

/-- The message moves from the front of one inbox to the end of the queue. -/
theorem Fed.moved (fed : b.Fed published) (h : Delivers b task l message rest b')
    (channel : String) :
    (onChannel channel (b'.enqueued task.sub) ++ onChannel channel rest).Sublist
      (onChannel channel published) := by
  have before := fed.pending l h.member (h.id ▸ h.owned) channel
  have split : l.inbox = [message] ++ rest := h.inbox
  rwa [h.id, split, onChannel_append, ← List.append_assoc, ← onChannel_append,
    ← if_pos (t := [message]) (e := []) (rfl : task.sub = task.sub), ← h.enqueued] at before

/-- The other tasks of the subscription hold no message of its channel. -/
theorem Fed.siblings (fed : b.Fed published) (h : Delivers b task l message rest b')
    (present : old ∈ b.listeners) (other : old ≠ l) (same : task.sub = old.id.sub) :
    onChannel message.channel old.inbox = [] := by
  refine onChannel_eq_nil fun m inside => ?_
  have siblings : l.id.sub = old.id.sub := by rw [h.id, same]
  have apart := fed.apart l h.member old present other.symm siblings (h.id ▸ h.owned) message
    (h.inbox ▸ List.mem_cons_self) m inside
  exact fun equal => apart equal.symm

theorem Fed.delivers (fed : b.Fed published) (h : Delivers b task l message rest b') :
    b'.Fed published := by
  have queued (sub : Uuid) (channel : String) :
      (onChannel channel (b'.enqueued sub)).Sublist (onChannel channel published) := by
    by_cases same : task.sub = sub
    · exact same ▸ (List.sublist_append_left ..).trans (fed.moved h channel)
    · exact h.untouched same ▸ fed.queued sub channel
  refine ⟨queued, ?_, ?_⟩
  · intro l' member owned channel
    rw [h.listeners] at member
    obtain ⟨old, present, rfl⟩ := List.mem_map.mp member
    rw [took_id] at owned ⊢
    rw [h.dropped] at owned
    have before := fed.pending old present owned channel
    have fewer := onChannel_sublist channel (took_inbox task old)
    by_cases same : task.sub = old.id.sub
    · by_cases taken : old = l
      · subst taken
        rw [took, if_pos (by simp [h.id]), ← same]
        simp only [h.inbox, List.tail_cons]
        exact fed.moved h channel
      · by_cases channels : message.channel = channel
        · rw [← channels] at fewer ⊢
          rw [fed.siblings h present taken same, List.sublist_nil] at fewer
          rw [fewer, List.append_nil]
          exact queued old.id.sub message.channel
        · rw [h.enqueued, if_pos same, onChannel_append, onChannel_other channels,
            List.append_nil]
          exact ((List.Sublist.refl _).append fewer).trans before
    · rw [h.untouched same]
      exact ((List.Sublist.refl _).append fewer).trans before
  · intro x member y member' other siblings owned m inside m' inside'
    rw [h.listeners] at member member'
    obtain ⟨old, present, rfl⟩ := List.mem_map.mp member
    obtain ⟨old', present', rfl⟩ := List.mem_map.mp member'
    rw [took_id, took_id] at siblings
    rw [took_id, h.dropped] at owned
    have distinct : old ≠ old' := fun same => other (congrArg (took task) same)
    exact fed.apart old present old' present' distinct siblings owned m
      ((took_inbox task old).subset inside) m' ((took_inbox task old').subset inside')

end Delivers

/-- If a task takes in messages of this channel, no other task of the same subscription
does, or still holds one. -/
def Alone (b : Broker α) (channel : String) : Prop :=
  ∀ l ∈ b.listeners, ∀ l' ∈ b.listeners, l ≠ l' → l.id.sub = l'.id.sub → l.id.sub ∉ b.dropped →
    l.hears channel = true → l'.hears channel = false ∧ ∀ m ∈ l'.inbox, m.channel ≠ channel

section Publish
variable {b : Broker α} {published : List (Message α)} {message : Message α}

@[simp] theorem offer_id (message : Message α) (l : Listener α) : (offer message l).id = l.id := by
  unfold offer
  split
  · rfl
  · rfl

theorem offer_inbox (message : Message α) (l : Listener α) :
    (offer message l).inbox = l.inbox ++ if l.hears message.channel then [message] else [] := by
  unfold offer Listener.hears
  split
  · rfl
  · exact (List.append_nil _).symm

theorem mem_offer_inbox :
    m ∈ (offer message l).inbox ↔ m ∈ l.inbox ∨ l.hears message.channel = true ∧ m = message := by
  rw [offer_inbox, List.mem_append]
  by_cases hears : l.hears message.channel = true
  · simp [hears]
  · simp [hears]

theorem Fed.publish (fed : b.Fed published) (alone : b.Alone message.channel) :
    (b.publish message).Fed (published ++ [message]) := by
  refine ⟨?_, ?_, ?_⟩
  · intro sub channel
    rw [onChannel_append]
    exact (fed.queued sub channel).trans (List.sublist_append_left ..)
  · intro l' member owned channel
    obtain ⟨l, present, rfl⟩ := List.mem_map.mp member
    rw [offer_id] at owned ⊢
    rw [offer_inbox, onChannel_append, onChannel_append, ← List.append_assoc]
    refine (fed.pending l present owned channel).append ?_
    split
    · exact List.Sublist.refl _
    · exact List.nil_sublist _
  · intro x member y member' other siblings owned m inside m' inside' same
    obtain ⟨l, present, rfl⟩ := List.mem_map.mp member
    obtain ⟨l', present', rfl⟩ := List.mem_map.mp member'
    rw [offer_id, offer_id] at siblings
    rw [offer_id] at owned
    have distinct : l ≠ l' := fun equal => other (congrArg (offer message) equal)
    rcases mem_offer_inbox.mp inside with old | ⟨hears, rfl⟩
    · rcases mem_offer_inbox.mp inside' with old' | ⟨hears', rfl⟩
      · exact fed.apart l present l' present' distinct siblings owned m old m' old' same
      · exact (alone l' present' l present distinct.symm siblings.symm (siblings ▸ owned)
          hears').2 m old same
    · obtain ⟨deaf, none⟩ := alone l present l' present' distinct siblings owned hears
      rcases mem_offer_inbox.mp inside' with old' | ⟨hears', -⟩
      · exact none m' old' same.symm
      · exact absurd hears' (by simp [deaf])

end Publish
end Broker

namespace PubSub
variable {s t : PubSub}

theorem Advances.quiet (h : Advances s c ok t) :
    Broker.Quiet s.broker t.broker ∧ t.published = s.published := by
  cases h with
  | connected todo => exact ⟨Broker.quiet_connect s.broker c.task, rfl⟩
  | unconnected todo => exact ⟨Broker.quiet_drop s.broker c.sub, rfl⟩
  | listening channel todo => exact ⟨Broker.quiet_listen s.broker c.task channel, rfl⟩
  | unsubscribed channel todo =>
    exact ⟨(Broker.quiet_close s.broker c.task).trans (Broker.quiet_drop _ c.sub), rfl⟩
  | spawned ok => exact ⟨Broker.quiet_start s.broker c.task, rfl⟩

theorem Adds.quiet (h : Adds s a t) :
    Broker.Quiet s.broker t.broker ∧ t.published = s.published := by
  cases h with
  | connected => exact ⟨Broker.quiet_connect s.broker a.task, rfl⟩
  | unconnected => exact ⟨.aside rfl rfl rfl rfl, rfl⟩
  | listening => exact ⟨Broker.quiet_listen s.broker a.task a.channel, rfl⟩
  | unsubscribed => exact ⟨Broker.quiet_close s.broker a.task, rfl⟩
  | inserted => exact ⟨Broker.quiet_finishAdd s.broker a.channel a.task.sub a.task.number, rfl⟩

/-- Messages move by publishing and by deliveries only. -/
theorem step_effect (stepped : s.step a = some t) :
    (Broker.Quiet s.broker t.broker ∧ t.published = s.published) ∨
    (∃ channel data, a = .publish channel data ∧
      t.broker = s.broker.publish ⟨channel, data, s.published.length⟩ ∧
      t.published = s.published ++ [⟨channel, data, s.published.length⟩]) ∨
    ∃ task l message rest, a = .deliver task ∧
      Broker.Delivers s.broker task l message rest t.broker ∧ t.published = s.published := by
  have moves := step_moves stepped
  cases moves with
  | publish channel data => exact Or.inr (Or.inl ⟨channel, data, rfl, rfl, rfl⟩)
  | advance c ok _ found advanced => exact Or.inl advanced.quiet
  | advanceAdd a ok _ inside adds => exact Or.inl adds.quiet
  | removeSubscription channel sub broker removed =>
    exact Or.inl ⟨Broker.quiet_removeSubscription removed, rfl⟩
  | unsubscribe sub => exact Or.inl ⟨Broker.quiet_unsubscribe s.broker sub, rfl⟩
  | turn a broker turns =>
    cases turns.outcome with
    | finished task l _ _ finishes => exact Or.inl ⟨finishes.quiet, rfl⟩
    | delivered task l message rest _ delivers =>
      exact Or.inr (Or.inr ⟨task, l, message, rest, rfl, delivers, rfl⟩)
    | hungUp task => exact Or.inl ⟨Broker.quiet_hangUp s.broker task, rfl⟩
    | received sub message _ received => exact Or.inl ⟨Broker.quiet_receive received, rfl⟩
    | dropped sub => exact Or.inl ⟨Broker.quiet_drop s.broker sub, rfl⟩
  | _ => exact Or.inl ⟨.aside rfl rfl rfl rfl, rfl⟩

/-- The log of deliveries tells what went into a queue: what waits there is the end of it. -/
theorem step_queues (stepped : s.step a = some t)
    (waiting : ∀ sub, s.broker.queues sub <:+ s.broker.enqueued sub) (sub : Uuid) :
    t.broker.queues sub <:+ t.broker.enqueued sub := by
  rcases step_effect stepped with ⟨quiet, -⟩ | ⟨channel, data, -, broker, -⟩ |
    ⟨task, l, message, rest, -, delivers, -⟩
  · exact quiet.enqueued sub ▸ (quiet.queues sub).trans (waiting sub)
  · exact broker ▸ waiting sub
  · rw [delivers.queues, delivers.enqueued]
    obtain ⟨taken, whole⟩ := waiting sub
    exact ⟨taken, by rw [← whole, List.append_assoc]⟩

theorem run_queues (h : run step initial schedule = some s) :
    ∀ sub, s.broker.queues sub <:+ s.broker.enqueued sub :=
  invariant (fun before stepped => step_queues stepped before)
    (fun _ => List.suffix_refl _) h

/-- Each published message at most once, and in the order of publication. -/
def InOrder (s : PubSub) : Prop :=
  ∀ sub channel,
    (onChannel channel (s.broker.enqueued sub)).Nodup ∧
    (onChannel channel (s.broker.enqueued sub)).Sublist (onChannel channel s.published)

/-- When a message is published, no two tasks of one subscription are in for its channel. -/
def Apart (s : PubSub) : Action → Prop
  | .publish channel _ => s.broker.Alone channel
  | _ => True

instance (b : Broker Nat) (channel : String) : Decidable (b.Alone channel) :=
  inferInstanceAs (Decidable (∀ l ∈ _, ∀ l' ∈ _, _))

instance (s : PubSub) (a : Action) : Decidable (s.Apart a) := by
  unfold Apart
  split <;> infer_instance

/-- What is published gets its place as number. -/
structure Numbered (s : PubSub) : Prop where
  below : ∀ m ∈ s.published, m.origin < s.published.length
  distinct : s.published.Nodup

theorem step_numbered (stepped : s.step a = some t) (numbered : s.Numbered) : t.Numbered := by
  rcases step_effect stepped with ⟨-, same⟩ | ⟨channel, data, -, -, more⟩ | ⟨_, _, _, _, -, -, same⟩
  · exact ⟨same ▸ numbered.below, same ▸ numbered.distinct⟩
  · refine ⟨?_, ?_⟩
    · intro m member
      rw [more, List.length_append, List.length_singleton]
      rw [more, List.mem_append, List.mem_singleton] at member
      rcases member with old | rfl
      · have below := numbered.below m old
        omega
      · exact Nat.lt_succ_self _
    · rw [more]
      apply List.Nodup.append numbered.distinct (List.nodup_singleton _)
      intro m member single
      have below := numbered.below m member
      rw [List.mem_singleton.mp single] at below
      exact absurd below (Nat.lt_irrefl _)
  · exact ⟨same ▸ numbered.below, same ▸ numbered.distinct⟩

theorem step_fed (fed : s.broker.Fed s.published) (apart : s.Apart a)
    (stepped : s.step a = some t) : t.broker.Fed t.published := by
  rcases step_effect stepped with ⟨quiet, same⟩ | ⟨channel, data, rfl, broker, more⟩ |
    ⟨task, l, message, rest, rfl, delivers, same⟩
  · exact same ▸ fed.quiet quiet
  · rw [broker, more]
    exact fed.publish apart
  · exact same ▸ fed.delivers delivers

theorem initial_fed : initial.broker.Fed initial.published := by
  constructor <;> simp [initial, Broker.empty, Broker.enqueued]

/-- As long as no message is published into two tasks of one subscription, every queue gets
each message of a channel at most once and in the order of publication. -/
theorem run_inOrder (schedule : List Action) (meets : Meets step Apart initial schedule) :
    Throughout step InOrder initial schedule := by
  rintro past rest s rfl reached
  have fed : s.broker.Fed s.published :=
    invariant_of_meets (I := fun s => s.broker.Fed s.published) step_fed initial_fed
      (meets.split reached).1 reached
  have numbered : s.Numbered :=
    invariant (fun before stepped => step_numbered stepped before)
      ⟨by simp [initial], List.nodup_nil⟩ reached
  intro sub channel
  have queued := fed.queued sub channel
  exact ⟨queued.nodup (numbered.distinct.filter _), queued⟩

/-- The topic is removed and added again; the old task sees its shutdown in between or not. -/
def renewal (stopped : Bool) : List Action :=
  [.removeSubscription "news" 0] ++ (if stopped then [.stop ⟨0, some "news", 1⟩] else []) ++
    addition 2

theorem renewal_inOrder : Throughout step InOrder initial
    (arrival ++ [.publish "news" [1], .deliver ⟨0, some "news", 1⟩] ++ renewal true ++
      [.publish "news" [2], .publish "inbox" [3], .deliver ⟨0, none, 0⟩,
        .deliver ⟨0, some "news", 2⟩]) :=
  run_inOrder _ (by decide +kernel)

/-- Both tasks of the topic are alive and put one message into the queue, each its own. -/
theorem renewal_delivers_twice : ¬ ∀ schedule s,
    run step initial schedule = some s → s.InOrder := by
  intro claim
  have twice : (run step initial (arrival ++ renewal false ++ [.publish "news" [1],
      .deliver ⟨0, some "news", 1⟩, .deliver ⟨0, some "news", 2⟩])).map
        (fun s => onChannel "news" (s.broker.enqueued 0)) =
      some [⟨"news", [1], 0⟩, ⟨"news", [1], 0⟩] := by
    decide +kernel
  obtain ⟨s, reached, events⟩ := Option.map_eq_some_iff.mp twice
  have once := (claim _ s reached 0 "news").1
  rw [events] at once
  exact absurd once (by decide)

end PubSub
end Propeller
