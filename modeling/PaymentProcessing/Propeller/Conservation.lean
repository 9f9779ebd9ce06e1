import PaymentProcessing.Propeller.Fates

/-! What becomes of the messages of a channel from the return of `subscribe` or
`add_subscription` on. The task that the call spawned moves them to the queue in order; any
other task of the subscription that hears the channel puts them there once more. -/
namespace Propeller
open Relational Transition

/-- Messages published when `n` had been published already. -/
def since (n : Nat) (messages : List (Message Nat)) : List (Message Nat) :=
  messages.filter (n ≤ ·.origin)

section Since
variable {messages : List (Message Nat)} {n : Nat}

@[simp] theorem since_nil : since n ([] : List (Message Nat)) = [] := rfl

@[simp] theorem since_append (left right : List (Message Nat)) :
    since n (left ++ right) = since n left ++ since n right :=
  List.filter_append ..

theorem since_old (old : ∀ m ∈ messages, m.origin < n) : since n messages = [] := by
  refine List.filter_eq_nil_iff.mpr fun m member => ?_
  simpa using old m member

theorem since_new (new : ∀ m ∈ messages, n ≤ m.origin) : since n messages = messages :=
  List.filter_eq_self.mpr fun m member => by simpa using new m member

/-- A message that plays no part. -/
theorem onChannel_since_nil {m : Message Nat} (old : m.channel = channel → m.origin < n) :
    onChannel channel (since n [m]) = [] := by
  refine List.filter_eq_nil_iff.mpr fun m' member => ?_
  obtain ⟨single, late⟩ := List.mem_filter.mp member
  obtain rfl := List.mem_singleton.mp single
  have late : n ≤ m'.origin := by simpa using late
  simpa using fun own => absurd (old own) (Nat.not_lt_of_le late)

end Since

namespace PubSub
variable {s t u : PubSub} {task : TaskId} {channel : String} {n : Nat}

/-- The call that made this task for the channel returns. -/
def Joins (task : TaskId) (channel : String) (s : PubSub) : Action → Prop
  | .advance sub _ =>
      ∃ c ∈ s.call sub, c.stage = .opening true [] ∧ c.task = task ∧ channel ∈ c.channels
  | .advanceAdd other _ => other = task ∧
      ∃ a ∈ s.adding.find? (·.task = task), a.phase = .inserting ∧ a.channel = channel
  | _ => False

/-- The channel is not removed, the subscription not unsubscribed, and the Redis connection
stays up. -/
def Keeps (task : TaskId) : Action → Prop
  | .removeSubscription name sub => sub = task.sub → task.topic ≠ some name
  | .unsubscribe sub => sub ≠ task.sub
  | .hangUp other => other ≠ task
  | _ => True

/-- A message of the channel finds no other connection of the subscription that hears it, and
no other `add_subscription` replaces the control of the task. -/
def Sole (task : TaskId) (channel : String) (s : PubSub) : Action → Prop
  | .publish name _ => name = channel → ∀ l ∈ s.broker.listeners, l.id.sub = task.sub →
      l.hears channel = true → l.id = task
  | .advanceAdd other _ => ∀ a ∈ s.adding, a.task = other → a.phase = .inserting →
      other.sub = task.sub → task.topic ≠ some a.channel
  | _ => True

instance (task : TaskId) (a : Action) : Decidable (Keeps task a) := by
  apply Action.casesOn (motive := fun a => Decidable (Keeps task a)) a <;>
    (intros; dsimp only [Keeps]; infer_instance)

instance (s : PubSub) (a : Action) : Decidable (Joins task channel s a) := by
  apply Action.casesOn (motive := fun a => Decidable (Joins task channel s a)) a <;>
    (intros; dsimp only [Joins]; infer_instance)

instance (s : PubSub) (a : Action) : Decidable (Sole task channel s a) := by
  apply Action.casesOn (motive := fun a => Decidable (Sole task channel s a)) a <;>
    (intros; dsimp only [Sole]; infer_instance)

/-- What `event_rx.recv()` took so far. -/
def noteTaken (sub : Uuid) (s : PubSub) : Action → List (Message Nat) → List (Message Nat)
  | .receive other, taken =>
      if other = sub then taken ++ (s.broker.queues sub).head?.toList else taken
  | _, taken => taken

/-- The messages of the channel published from the `n`th on are those taken, those in the queue
and those in the stream of the task, in this order. -/
def Conserved (task : TaskId) (channel : String) (n : Nat) (taken : List (Message Nat))
    (s : PubSub) : Prop :=
  ∃ l ∈ s.broker.listeners, l.id = task ∧
    onChannel channel (s.published.drop n) =
      onChannel channel (since n taken) ++ onChannel channel (since n (s.broker.queues task.sub)) ++
        onChannel channel (since n l.inbox)

/-- The task goes on, its stream continues the queue, and no other task of the subscription
holds a message of the channel. -/
structure Feeds (task : TaskId) (channel : String) (n : Nat) (l : Listener Nat) (s : PubSub) :
    Prop where
  member : l ∈ s.broker.listeners
  id : l.id = task
  running : l.running = true
  going : l.stopping = false
  hears : l.hears channel = true
  whole : onChannel channel (since n s.published) =
    onChannel channel (since n (s.broker.enqueued task.sub)) ++ onChannel channel (since n l.inbox)
  others : ∀ l' ∈ s.broker.listeners, l'.id.sub = task.sub → l'.id ≠ task → ∀ m ∈ l'.inbox,
    m.channel = channel → m.origin < n

section Feeds

/-- What goes into the queue of a subscription is taken from it in the same order. -/
theorem step_taken (stepped : s.step a = some t) (sub : Uuid) (taken : List (Message Nat)) :
    ∃ new, t.broker.enqueued sub = s.broker.enqueued sub ++ new ∧
      noteTaken sub s a taken ++ t.broker.queues sub = taken ++ s.broker.queues sub ++ new := by
  have idle (enqueued : t.broker.enqueued sub = s.broker.enqueued sub)
      (queues : t.broker.queues sub = s.broker.queues sub) (untaken : noteTaken sub s a taken = taken) :
      ∃ new, t.broker.enqueued sub = s.broker.enqueued sub ++ new ∧
        noteTaken sub s a taken ++ t.broker.queues sub = taken ++ s.broker.queues sub ++ new :=
    ⟨[], by rw [enqueued, List.append_nil], by rw [queues, untaken, List.append_nil]⟩
  have moves := step_moves stepped
  cases moves with
  | advance c ok _ found advanced =>
    refine idle (advanced.quiet.1.enqueued sub) ?_ rfl
    cases advanced with
    | _ => rfl
  | advanceAdd a ok _ present adds =>
    refine idle (adds.quiet.1.enqueued sub) ?_ rfl
    cases adds with
    | _ => rfl
  | removeSubscription name other b removed =>
    refine idle ((Broker.quiet_removeSubscription removed).enqueued sub) ?_ rfl
    obtain ⟨entry, -, -, rfl⟩ := Broker.removeSubscription_ok removed
    rfl
  | unsubscribe other =>
    refine idle ((Broker.quiet_unsubscribe s.broker other).enqueued sub) ?_ rfl
    simp only [withBroker, Broker.unsubscribe]
    split
    · rfl
    · rfl
  | turn a b turns =>
    cases turns with
    | deliver other _ delivered =>
      rcases Broker.deliver_cases delivered with ⟨-, l, finishes⟩ | ⟨l, message, rest, delivers⟩
      · exact idle (finishes.quiet.enqueued sub) (congrFun finishes.queues sub) rfl
      · refine ⟨_, delivers.enqueued sub, ?_⟩
        simp only [withBroker, delivers.queues, noteTaken, List.append_assoc]
    | stop other _ stopped =>
      obtain ⟨l, finishes, -⟩ := Broker.stop_finishes stopped
      exact idle (finishes.quiet.enqueued sub) (congrFun finishes.queues sub) rfl
    | endOfStream other _ ended =>
      obtain ⟨l, finishes⟩ := Broker.endOfStream_finishes ended
      exact idle (finishes.quiet.enqueued sub) (congrFun finishes.queues sub) rfl
    | receive other message _ received =>
      refine ⟨[], ?_, ?_⟩
      · rw [List.append_nil]
        exact (Broker.quiet_receive received).enqueued sub
      · obtain ⟨rest, queue, rfl⟩ := Broker.receive_ok received
        simp only [withBroker, noteTaken, List.append_nil, eq_comm (a := sub)]
        split <;> rename_i same
        · rw [← same, queue]
          simp
        · rfl
    | hangUp | drop => exact idle rfl rfl rfl
  | _ => exact idle rfl rfl rfl

theorem run_taken (h : run step s schedule = some t) (sub : Uuid) :
    ∃ new, t.broker.enqueued sub = s.broker.enqueued sub ++ new ∧
      record step (noteTaken sub) s [] schedule ++ t.broker.queues sub = s.broker.queues sub ++ new := by
  refine history_of_meets (C := fun _ _ => True)
    (I := fun past t => ∃ new, t.broker.enqueued sub = s.broker.enqueued sub ++ new ∧
      record step (noteTaken sub) s [] past ++ t.broker.queues sub = s.broker.queues sub ++ new)
    ?_ ⟨[], by simp, by simp [record]⟩ (.of_forall (fun _ _ => trivial) s) h
  rintro past u a v reached ⟨new, enqueued, queues⟩ - stepped
  obtain ⟨more, enqueued', queues'⟩ := step_taken stepped sub (record step (noteTaken sub) s [] past)
  refine ⟨new ++ more, ?_, ?_⟩
  · rw [enqueued', enqueued, List.append_assoc]
  · rw [record_append reached stepped, queues', queues, List.append_assoc]

/-- A step of the rest of the run leaves the task at work: it takes in a message, moves one, or
is left alone. -/
theorem Feeds.goes (before : Feeds task channel n l s) (tidy : s.Tidy) (single : s.Single)
    (stepped : s.step a = some t) (owned : task.sub ∉ s.broker.dropped) :
    ∃ l' ∈ t.broker.listeners, Goes s a l l' := by
  have connected : l.connected = true := by
    have hears := before.hears
    simp only [Listener.hears, Bool.and_eq_true] at hears
    exact hears.1
  refine ((step_fates tidy single stepped).forward l before.member).resolve_right fun leaves => ?_
  cases leaves with
  | closed reserved =>
    have idle := tidy.sane.waiting l before.member reserved
    exact absurd before.running (by simp [idle.1])
  | stopped _ _ stopping => exact absurd stopping (by simp [before.going])
  | hungUp _ _ down => exact absurd connected (by simp [down])
  | unheard _ _ gone => exact owned (before.id ▸ gone)

theorem Feeds.turned (before : Feeds task channel n l s) (tidy : s.Tidy) (keeps : Keeps task a)
    (sole : Sole task channel s a) (turned : Turned s a l l') : l' = l := by
  have started : ¬ s.tasks.Reserved l.id := fun reserved => by
    have idle := tidy.sane.waiting l before.member reserved
    exact absurd before.running (by simp [idle.1])
  cases turned with
  | same => rfl
  | listens _ reserved => exact absurd reserved started
  | starts reserved => exact absurd reserved started
  | hangsUp hung =>
    subst hung
    exact absurd before.id keeps
  | told tells =>
    rw [before.id] at tells
    cases tells with
    | removed name topic => exact absurd topic (keeps rfl)
    | unsubscribed => exact absurd rfl keeps
    | replaced x ok adding phase sub topic => exact absurd topic (sole x adding rfl phase sub)

/-- The others hear nothing new. -/
theorem Feeds.aside (before : Feeds task channel n l s) (tidy : s.Tidy) (single : s.Single)
    (stepped : s.step a = some t) (sole : Sole task channel s a) :
    ∀ l' ∈ t.broker.listeners, l'.id.sub = task.sub → l'.id ≠ task → ∀ m ∈ l'.inbox,
      m.channel = channel → m.origin < n := by
  intro l' member named other m inside own
  rcases (step_fates tidy single stepped).backward l' member with ⟨old, present, goes⟩ | ⟨-, new⟩
  · have same : l'.id = old.id := goes.id
    have early (held : m ∈ old.inbox) : m.origin < n :=
      before.others old present (same ▸ named) (same ▸ other) m held own
    cases goes with
    | offered name data published =>
      subst published
      rcases Broker.mem_offer_inbox.mp inside with held | ⟨hears, rfl⟩
      · exact early held
      · subst own
        exact absurd (sole rfl old present (same ▸ named) hears) (same ▸ other)
    | took message rest _ inbox => exact early (inbox ▸ List.mem_cons_of_mem _ inside)
    | turned _ _ turned => exact early (turned.kept.2 ▸ inside)
  · rw [new] at inside
    cases inside

theorem Feeds.working (before : Feeds task channel n l s) (tidy : s.Tidy) (keeps : Keeps task a)
    (sole : Sole task channel s a) (goes : Goes s a l l') :
    l'.running = true ∧ l'.stopping = false ∧ l'.hears channel = true := by
  cases goes with
  | offered name data =>
    unfold Broker.offer
    split
    · exact ⟨before.running, before.going, before.hears⟩
    · exact ⟨before.running, before.going, before.hears⟩
  | took => exact ⟨before.running, before.going, before.hears⟩
  | turned _ _ turned =>
    rw [before.turned tidy keeps sole turned]
    exact ⟨before.running, before.going, before.hears⟩

theorem Feeds.kept {l l' : Listener Nat} (before : Feeds task channel n l s)
    (inbox : l'.inbox = l.inbox) (untouched : ¬ a.touches l.id) (stepped : s.step a = some t) :
    onChannel channel (since n t.published) =
      onChannel channel (since n (t.broker.enqueued task.sub)) ++ onChannel channel (since n l'.inbox) := by
  rw [inbox]
  rcases step_effect stepped with ⟨quiet, same⟩ | ⟨_, _, rfl, -⟩ |
    ⟨other, l₂, message, rest, rfl, delivers, same⟩
  · rw [same, quiet.enqueued]
    exact before.whole
  · exact absurd trivial untouched
  · rw [same, delivers.enqueued, since_append, onChannel_append]
    have nothing : onChannel channel (since n (if other.sub = task.sub then [message] else [])) = [] := by
      split <;> rename_i sibling
      · refine onChannel_since_nil (before.others l₂ delivers.member ?_ ?_ message ?_)
        · rw [delivers.id, sibling]
        · rw [delivers.id, ← before.id]
          exact untouched
        · rw [delivers.inbox]
          exact List.mem_cons_self
      · rfl
    rw [nothing, List.append_nil]
    exact before.whole

theorem Feeds.took (before : Feeds task channel n l s) (single : s.Single)
    (stepped : s.step (.deliver l.id) = some t) (owned : task.sub ∉ s.broker.dropped)
    (inbox : l.inbox = message :: rest) :
    onChannel channel (since n t.published) =
      onChannel channel (since n (t.broker.enqueued task.sub)) ++ onChannel channel (since n rest) := by
  obtain ⟨b, delivered, rfl⟩ := Option.map_eq_some_iff.mp stepped
  rcases Broker.deliver_cases delivered with ⟨gone, -⟩ | ⟨l₂, message₂, rest₂, delivers⟩
  · exact absurd (before.id ▸ gone) owned
  · obtain rfl := single.unique delivers.member before.member delivers.id
    obtain ⟨rfl, rfl⟩ := List.cons.inj (inbox.symm.trans delivers.inbox)
    have split : l₂.inbox = [message] ++ rest := inbox
    have whole := before.whole
    rw [split, since_append, onChannel_append] at whole
    simp only [withBroker]
    rw [delivers.enqueued, before.id, if_pos rfl, since_append, onChannel_append, whole,
      List.append_assoc]

theorem Feeds.offered (before : Feeds task channel n l s)
    (stepped : s.step (.publish name data) = some t) :
    onChannel channel (since n t.published) =
      onChannel channel (since n (t.broker.enqueued task.sub)) ++
        onChannel channel (since n (Broker.offer ⟨name, data, s.published.length⟩ l).inbox) := by
  cases stepped
  have taken : onChannel channel (since n (if l.hears name then
      [(⟨name, data, s.published.length⟩ : Message Nat)] else [])) =
      onChannel channel (since n [⟨name, data, s.published.length⟩]) := by
    by_cases own : name = channel
    · rw [own, if_pos before.hears]
    · have other : onChannel channel (since n [(⟨name, data, s.published.length⟩ : Message Nat)]) = [] :=
        onChannel_since_nil fun same => absurd same own
      split
      · rfl
      · rw [other, since_nil, onChannel_nil]
  rw [Broker.offer_inbox, since_append, onChannel_append, since_append, onChannel_append, taken,
    ← List.append_assoc]
  exact congrArg (· ++ _) before.whole

theorem Feeds.step (before : Feeds task channel n l s) (tidy : s.Tidy) (single : s.Single)
    (stepped : s.step a = some t) (keeps : Keeps task a) (sole : Sole task channel s a)
    (owned : task.sub ∉ s.broker.dropped) : ∃ l', Feeds task channel n l' t := by
  obtain ⟨l', member, goes⟩ := before.goes tidy single stepped owned
  obtain ⟨running, going, hears⟩ := before.working tidy keeps sole goes
  refine ⟨l', member, goes.id.trans before.id, running, going, hears, ?_,
    before.aside tidy single stepped sole⟩
  cases goes with
  | offered name data published =>
    subst published
    exact before.offered stepped
  | took message rest delivers inbox =>
    subst delivers
    exact before.took single stepped owned inbox
  | turned _ untouched turned =>
    exact before.kept turned.kept.2 untouched stepped

theorem joins_live (tidy : u.Tidy) (joins : Joins task channel u a) (joined : u.step a = some s) :
    u.tasks.Reserved task ∧ s.tasks.Live task channel := by
  unfold Joins at joins
  split at joins
  · obtain ⟨c, found, stage, rfl, inside⟩ := joins
    obtain ⟨-, rfl⟩ := call_mem found
    refine ⟨reserved_call found stage, ?_⟩
    have started : s = (u.withBroker (u.broker.start c.task)).enter c.sub .returned := by
      rw [step, found, Option.bind_some, advance, stage] at joined
      exact (Option.some.inj joined).symm
    have wired := tidy.sane.wired _ (setup_of_call found stage)
    exact wired.start rfl rfl (congrArg (·.broker.listeners) started) inside
  · rename_i other ok
    obtain ⟨rfl, a, found, phase, rfl⟩ := joins
    have present : a ∈ u.adding := List.mem_of_find?_eq_some found
    obtain rfl : a.task = other := by simpa using List.find?_some found
    obtain ⟨b, found', rfl⟩ := Option.map_eq_some_iff.mp joined
    cases found.symm.trans found'
    refine ⟨reserved_adding present, inserted_live tidy present phase ?_⟩
    simp only [advanceAdd, phase]
  · contradiction

/-- The step tells other tasks to stop at most. -/
theorem Joins.going (joins : Joins task channel u a) (goes : Goes u a l l') (own : l.id = task) :
    l'.stopping = l.stopping := by
  cases goes with
  | offered name data published =>
    subst published
    contradiction
  | took => rfl
  | turned _ _ turned =>
    cases turned with
    | told tells =>
      rw [own] at tells
      cases tells with
      | removed | unsubscribed => contradiction
      | replaced x ok _ _ _ _ other => exact absurd joins.1 other
    | _ => rfl

/-- When the call returns, its task is at work, and all that was published is before it. -/
theorem joins_feeds (h : run step initial past = some u) (joins : Joins task channel u a)
    (joined : u.step a = some s)
    (up : ∃ l ∈ s.broker.listeners, l.id = task ∧ l.connected = true) :
    ∃ l, Feeds task channel s.published.length l s := by
  have reached := run_append_iff.mpr ⟨u, h, run_cons_iff.mpr ⟨s, joined, run_nil⟩⟩
  obtain ⟨held, places⟩ := run_held reached
  have single := run_single reached
  obtain ⟨reserved, l, member, named, running, listed⟩ := joins_live (run_tidy h) joins joined
  obtain ⟨l', member', named', connected⟩ := up
  obtain rfl := single.unique member' member (named'.trans named.symm)
  refine ⟨l', member, named, running, ?_, ?_, ?_, ?_⟩
  · rcases (step_fates (run_tidy h) (run_single h) joined).backward l' member with
      ⟨old, present, goes⟩ | ⟨-, new⟩
    · have same : old.id = task := goes.id.symm.trans named
      have idle := (run_tidy h).sane.waiting old present (same ▸ reserved)
      rw [joins.going goes same, idle.2]
    · rw [new]
  · simp only [Listener.hears, connected, Bool.true_and, List.contains_iff_mem]
    exact listed
  · rw [since_old places, since_old, since_old]
    · rfl
    · exact fun m inside => places m (held.inbox l' member m inside)
    · intro m queued
      obtain ⟨d, logged, rfl⟩ := List.mem_map.mp queued
      exact places _ (held.delivered d (List.mem_filter.mp logged).1)
  · exact fun l' member _ _ m inside _ => places m (held.inbox l' member m inside)

end Feeds

/-- From the return of `subscribe` or `add_subscription` on, the messages of the channel are
those taken, those queued and those in the stream of its task, if the task stays the only one. -/
theorem run_conserved (reached : run step initial past = some u) (joins : Joins task channel u a)
    (joined : u.step a = some s)
    (up : ∃ l ∈ s.broker.listeners, l.id = task ∧ l.connected = true)
    (keeps : ∀ b ∈ rest, Keeps task b) (sole : Meets step (Sole task channel) s rest)
    (h : run step s rest = some t) (owned : task.sub ∉ t.broker.dropped) :
    Conserved task channel s.published.length (record step (noteTaken task.sub) s [] rest) t := by
  have arrived := run_append_iff.mpr ⟨u, reached, run_cons_iff.mpr ⟨s, joined, run_nil⟩⟩
  obtain ⟨held, places⟩ := run_held arrived
  -- the receiver is never taken back, so it was there all along
  have feeds : t.Tidy ∧ t.Single ∧ (task.sub ∉ t.broker.dropped →
      ∃ l, Feeds task channel s.published.length l t) := by
    refine invariant_of_meets
      (I := fun t => t.Tidy ∧ t.Single ∧ (task.sub ∉ t.broker.dropped →
        ∃ l, Feeds task channel s.published.length l t)) ?_
      ⟨run_tidy arrived, run_single arrived, fun _ => joins_feeds reached joins joined up⟩
      (Meets.and (.of_forall keeps s) sole) h
    rintro v b w ⟨tidy, single, before⟩ ⟨keeps, sole⟩ stepped
    refine ⟨((step_moves stepped).zombies tidy).1, (step_moves stepped).single tidy single, ?_⟩
    intro owned
    have had : task.sub ∉ v.broker.dropped := fun gone => owned (step_dropped stepped gone)
    obtain ⟨l, feeds⟩ := before had
    exact feeds.step tidy single stepped keeps sole had
  obtain ⟨l, feeds⟩ := feeds.2.2 owned
  obtain ⟨later, published, new⟩ := run_published h
  obtain ⟨more, enqueued, taken⟩ := run_taken h task.sub
  have queued : ∀ m ∈ s.broker.enqueued task.sub, m.origin < s.published.length := by
    intro m inside
    obtain ⟨d, logged, rfl⟩ := List.mem_map.mp inside
    exact places _ (held.delivered d (List.mem_filter.mp logged).1)
  have waiting : ∀ m ∈ s.broker.queues task.sub, m.origin < s.published.length := fun m inside =>
    queued m ((run_queues arrived task.sub).subset inside)
  refine ⟨l, feeds.member, feeds.id, ?_⟩
  have whole := feeds.whole
  rw [published, enqueued, since_append, since_append, since_old places, since_new new,
    since_old queued, List.nil_append, List.nil_append] at whole
  have moved := congrArg (since s.published.length) taken
  rw [since_append, since_append, since_old waiting, List.nil_append] at moved
  rw [published, List.drop_left, whole, ← moved, onChannel_append]

/-- Messages to a topic and to the base channel, the first of them already received. -/
def bulletins : List Action :=
  [.publish "news" [1], .publish "inbox" [2], .deliver ⟨0, some "news", 1⟩, .deliver ⟨0, none, 0⟩,
    .receive 0, .publish "news" [3], .deliver ⟨0, some "news", 1⟩, .publish "news" [4]]

theorem bulletins_conserved : ∃ u s t, run step initial arrival.dropLast = some u ∧
    u.step (.advanceAdd ⟨0, some "news", 1⟩ true) = some s ∧ run step s bulletins = some t ∧
      Conserved ⟨0, some "news", 1⟩ "news" s.published.length
        (record step (noteTaken 0) s [] bulletins) t := by
  let news : TaskId := ⟨0, some "news", 1⟩
  have computed : ((run step initial arrival.dropLast).bind fun u =>
      (u.step (.advanceAdd news true)).bind fun s =>
        (run step s bulletins).filter fun t => Joins news "news" u (.advanceAdd news true) ∧
          (∃ l ∈ s.broker.listeners, l.id = news ∧ l.connected = true) ∧
            Meets step (Sole news "news") s bulletins ∧ 0 ∉ t.broker.dropped).isSome = true := by
    decide +kernel
  obtain ⟨t, ran⟩ := Option.isSome_iff_exists.mp computed
  obtain ⟨u, reached, ran⟩ := Option.bind_eq_some_iff.mp ran
  obtain ⟨s, joined, ran⟩ := Option.bind_eq_some_iff.mp ran
  obtain ⟨ran, tested⟩ := Option.filter_eq_some_iff.mp ran
  obtain ⟨joins, up, sole, owned⟩ := of_decide_eq_true tested
  exact ⟨u, s, t, reached, joined, ran,
    run_conserved reached joins joined up (by decide) sole ran owned⟩

/-- The topic is removed and added again, and the old task puts its copy of the message into the
queue as well. -/
theorem readded_unconserved : ¬ ∀ past u a s rest t task channel,
    run step initial past = some u → Joins task channel u a → u.step a = some s →
      (∃ l ∈ s.broker.listeners, l.id = task ∧ l.connected = true) → (∀ b ∈ rest, Keeps task b) →
        run step s rest = some t → task.sub ∉ t.broker.dropped →
          Conserved task channel s.published.length
            (record step (noteTaken task.sub) s [] rest) t := by
  intro claim
  let news : TaskId := ⟨0, some "news", 2⟩
  let rest : List Action :=
    [.publish "news" [1], .deliver ⟨0, some "news", 1⟩, .deliver ⟨0, some "news", 2⟩]
  have computed : ((run step initial (arrival ++ (renewal false).dropLast)).bind fun u =>
      (u.step (.advanceAdd news true)).bind fun s =>
        (run step s rest).filter fun t => Joins news "news" u (.advanceAdd news true) ∧
          (∃ l ∈ s.broker.listeners, l.id = news ∧ l.connected = true) ∧
            0 ∉ t.broker.dropped ∧ s.published.length = 0 ∧
              onChannel "news" t.published = [⟨"news", [1], 0⟩] ∧
                onChannel "news" (since 0 (t.broker.queues 0)) =
                  [⟨"news", [1], 0⟩, ⟨"news", [1], 0⟩]).isSome = true := by
    decide +kernel
  obtain ⟨t, ran⟩ := Option.isSome_iff_exists.mp computed
  obtain ⟨u, reached, ran⟩ := Option.bind_eq_some_iff.mp ran
  obtain ⟨s, joined, ran⟩ := Option.bind_eq_some_iff.mp ran
  obtain ⟨ran, tested⟩ := Option.filter_eq_some_iff.mp ran
  obtain ⟨joins, up, owned, none, published, queued⟩ := of_decide_eq_true tested
  obtain ⟨l, -, -, whole⟩ :=
    claim _ u _ s rest t news "news" reached joins joined up (by decide) ran owned
  rw [none, List.drop_zero, published, show news.sub = 0 from rfl, queued] at whole
  have lengths := congrArg List.length whole
  simp only [List.length_append, List.length_cons, List.length_nil] at lengths
  omega

end PubSub
end Propeller
