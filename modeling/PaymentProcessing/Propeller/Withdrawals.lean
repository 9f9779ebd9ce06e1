import PaymentProcessing.Propeller.Fates
import PaymentProcessing.Propeller.Isolation

/-! Events of a topic after `topic_unsubscribe`. The call sends `Shutdown` and returns; until
the detached task sees it, the Redis connection goes on, and the task chooses freely
between a message and the shutdown. -/
namespace Propeller
open Relational Transition

namespace PubSub
variable {s s' t : PubSub} {b : Broker Nat} {sub : Uuid} {channel : String} {n : Nat}

/-- `PushService::topic_unsubscribe` -/
def topicUnsubscribe (s : PubSub) (tenantId topic : String) (sub : Uuid) :
    Except PropellerError PubSub :=
  (scopedTopic tenantId topic).bind fun channel =>
    match s.broker.removeSubscription channel sub with
    | .ok broker => .ok (s.withBroker broker)
    | .error text => .error (.internal text)

/-- An `add_subscription` of the channel is about to succeed. -/
def Resubscribes (sub : Uuid) (channel : String) (s : PubSub) : Action → Prop
  | .advanceAdd task _ => ∃ a ∈ s.adding, a.task = task ∧ a.phase = .inserting ∧ a.task.sub = sub ∧
      a.channel = channel
  | _ => False

/-- When a message is published to the channel, a connection of the subscription takes it in
only for a task that the registry controls, or that is being added. -/
def Unheard (sub : Uuid) (channel : String) (s : PubSub) : Action → Prop
  | .publish name _ => name = channel → sub ∈ s.broker.dropped ∨
      ∀ l ∈ s.broker.listeners, l.id.sub = sub → l.hears channel = true →
        (l.id, channel) ∈ s.topicClaims ∨ ∃ a ∈ s.adding, a.task = l.id
  | _ => True

instance (s : PubSub) (a : Action) : Decidable (Resubscribes sub channel s a) := by
  apply Action.casesOn (motive := fun a => Decidable (Resubscribes sub channel s a)) a <;>
    (intros; dsimp only [Resubscribes]; infer_instance)

instance (s : PubSub) (a : Action) : Decidable (Unheard sub channel s a) := by
  apply Action.casesOn (motive := fun a => Decidable (Unheard sub channel s a)) a
  case publish =>
    intro name data
    dsimp only [Unheard]
    refine @forall_prop_decidable _ _ ?_ fun _ => ?_ <;> infer_instance
  all_goals intros; dsimp only [Unheard]; infer_instance

/-- The channel was given up when `n` messages had been published, and not asked for again:
only what is being added holds later ones. -/
structure Withdrawn (sub : Uuid) (channel : String) (n : Nat) (s : PubSub) : Prop where
  unregistered : ∀ task, task.sub = sub → (task, channel) ∉ s.topicClaims
  inboxes : sub ∉ s.broker.dropped → ∀ l ∈ s.broker.listeners, l.id.sub = sub → ∀ m ∈ l.inbox,
    m.channel = channel → n ≤ m.origin → ∃ a ∈ s.adding, a.task = l.id
  delivered : ∀ d ∈ s.broker.delivered, d.task.sub = sub → d.message.channel = channel →
    d.message.origin < n
  later : n ≤ s.published.length

section Withdrawn

theorem topicUnsubscribe_ok (ok : s.topicUnsubscribe tenantId topic sub = .ok s') :
    ∃ broker, s.broker.removeSubscription (topicChannel tenantId topic) sub = .ok broker ∧
      s' = s.withBroker broker := by
  unfold topicUnsubscribe at ok
  cases named : scopedTopic tenantId topic with
  | error e =>
    rw [named] at ok
    cases ok
  | ok channel =>
    obtain ⟨-, rfl⟩ := scopedTopic_ok named
    rw [named] at ok
    simp only [Except.bind] at ok
    split at ok
    · rename_i broker removed
      cases ok
      exact ⟨broker, removed, rfl⟩
    · cases ok

/-- Whoever spawns a task for the channel resubscribes. -/
theorem resubscribes_of_spawns (tidy : s.Tidy) (spawns : Spawns s task a) (named : task.sub = sub)
    (topic : task.topic = some channel) : Resubscribes sub channel s a := by
  cases spawns with
  | base ok none => rw [none] at topic; cases topic
  | topic x ok adding phase own =>
    have equal := tidy.topics x adding
    rw [own, topic] at equal
    exact ⟨x, adding, own, phase, own ▸ named, (Option.some.inj equal).symm⟩

/-- Whatever took in a message of the channel is being added. -/
theorem Withdrawn.taken (before : Withdrawn sub channel n s) (unheard : Unheard sub channel s a)
    (held : sub ∉ s.broker.dropped) (goes : Goes s a l l') (present : l ∈ s.broker.listeners)
    (named : l.id.sub = sub) (inside : m ∈ l'.inbox) (own : m.channel = channel)
    (late : n ≤ m.origin) : ∃ x ∈ s.adding, x.task = l.id := by
  have old (inside : m ∈ l.inbox) : ∃ x ∈ s.adding, x.task = l.id :=
    before.inboxes held l present named m inside own late
  cases goes with
  | offered name data published =>
    rcases Broker.mem_offer_inbox.mp inside with already | ⟨hears, rfl⟩
    · exact old already
    · subst published own
      rcases unheard rfl with gone | heard
      · exact absurd gone held
      · refine (heard l present named hears).resolve_left ?_
        exact before.unregistered l.id named
  | took message rest _ inbox => exact old (inbox ▸ List.mem_cons_of_mem _ inside)
  | turned _ _ turned => exact old (turned.kept.2 ▸ inside)

theorem step_withdrawn (tidy : s.Tidy) (single : s.Single) (tuned : t.Tuned)
    (stepped : s.step a = some t) (unheard : Unheard sub channel s a)
    (absent : ¬ Resubscribes sub channel s a) (before : Withdrawn sub channel n s) :
    Withdrawn sub channel n t := by
  refine ⟨fun task named claimed => ?_, fun owned l' member named m inside own late => ?_,
    fun d logged named own => ?_, ?_⟩
  · rcases step_topicClaims tidy stepped claimed with old | spawns
    · exact before.unregistered task named old
    · obtain ⟨entry, -, number, -, rfl⟩ := mem_topicClaims.mp claimed
      exact absent (resubscribes_of_spawns tidy spawns named rfl)
  · have held : sub ∉ s.broker.dropped := fun gone => owned (step_dropped stepped gone)
    rcases (step_fates tidy single stepped).backward l' member with ⟨l, present, goes⟩ | ⟨-, new⟩
    · have same : l'.id = l.id := goes.id
      obtain ⟨x, adding, task⟩ := before.taken unheard held goes present (same ▸ named) inside own late
      rcases step_adding single stepped member adding (task.trans same.symm) with still | spawns
      · exact still
      · -- only a topic's task is being added
        have topic : l'.id.topic = some x.channel := by
          rw [same, ← task]
          exact tidy.topics x adding
        have equal : channel = x.channel := own ▸ (tuned l' member x.channel topic).2 m inside
        exact absurd (resubscribes_of_spawns tidy spawns named (equal ▸ topic)) absent
    · rw [new] at inside
      cases inside
  · rcases step_effect stepped with ⟨quiet, -⟩ | ⟨name, data, -, broker, -⟩ |
      ⟨task, l, message, rest, taken, delivers, -⟩
    · exact before.delivered d (quiet.delivered ▸ logged) named own
    · rw [broker] at logged
      exact before.delivered d logged named own
    · rw [delivers.delivered, List.mem_append, List.mem_singleton] at logged
      rcases logged with old | rfl
      · exact before.delivered d old named own
      · by_contra late
        have held : sub ∉ s.broker.dropped := named ▸ delivers.owned
        obtain ⟨x, adding, same⟩ := before.inboxes held l delivers.member (delivers.id ▸ named)
          message (delivers.inbox ▸ List.mem_cons_self) own (Nat.le_of_not_lt late)
        -- what is being added does not run yet
        have idle := tidy.sane.waiting l delivers.member (same ▸ reserved_adding adding)
        subst taken
        obtain ⟨b, delivered, -⟩ := Option.map_eq_some_iff.mp stepped
        obtain ⟨l', present, id, running⟩ := Broker.deliver_running delivered
        rw [single.unique present delivers.member (id.trans delivers.id.symm), idle.1] at running
        cases running
  · have grows : s.published.length ≤ t.published.length := by
      rcases step_effect stepped with ⟨-, same⟩ | ⟨_, _, -, -, more⟩ | ⟨_, _, _, _, -, -, same⟩
      · exact same ▸ Nat.le_refl _
      · rw [more, List.length_append]
        exact Nat.le_add_right ..
      · exact same ▸ Nat.le_refl _
    exact Nat.le_trans before.later grows

theorem removed_withdrawn (h : run step initial past = some s)
    (removed : s.broker.removeSubscription channel sub = .ok b) :
    Withdrawn sub channel s.published.length (s.withBroker b) := by
  have stepped : s.step (.removeSubscription channel sub) = some (s.withBroker b) := by
    rw [step, removed]
  have reached := run_append_iff.mpr ⟨s, h, run_cons_iff.mpr ⟨_, stepped, run_nil⟩⟩
  obtain ⟨held, places⟩ := run_held reached
  refine ⟨fun task named claimed => ?_, fun _ l member _ m inside _ late => ?_,
    fun d logged _ _ => places _ (held.delivered d logged), Nat.le_refl _⟩
  · obtain ⟨entry, registered, number, inside, rfl⟩ := mem_topicClaims.mp claimed
    obtain ⟨_, -, -, rfl⟩ := Broker.removeSubscription_ok removed
    obtain ⟨old, -, rfl⟩ := mem_updateWhere.mp registered
    split at inside <;> rename_i hit
    · exact absurd rfl (of_decide_eq_true (List.mem_filter.mp inside).2)
    · rw [if_neg hit] at named
      exact hit (by simpa using named)
  · exact absurd (places m (held.inbox l member m inside)) (Nat.not_lt_of_le late)

end Withdrawn

/-- After `topic_unsubscribe` returned, nothing published to the topic reaches the queue until
an `add_subscription` of it succeeds, if each message finds no task that was given up. -/
theorem run_unsubscribed (reached : run step initial past = some s)
    (ok : s.topicUnsubscribe tenantId topic sub = .ok s')
    (meets : Meets step (Unheard sub (topicChannel tenantId topic)) s' rest)
    (absent : ¬ Occurs step (Resubscribes sub (topicChannel tenantId topic)) s' rest)
    (h : run step s' rest = some t) :
    ∀ m ∈ t.published.drop s'.published.length, m.channel = topicChannel tenantId topic →
      m ∉ t.broker.enqueued sub := by
  obtain ⟨broker, removed, rfl⟩ := topicUnsubscribe_ok ok
  have stepped : s.step (.removeSubscription (topicChannel tenantId topic) sub) =
      some (s.withBroker broker) := by
    rw [step, removed]
  have arrived := run_append_iff.mpr ⟨s, reached, run_cons_iff.mpr ⟨_, stepped, run_nil⟩⟩
  have withdrawn : t.Tidy ∧ t.Single ∧ t.Tuned ∧
      Withdrawn sub (topicChannel tenantId topic) s.published.length t := by
    refine invariant_of_meets
      (I := fun t => t.Tidy ∧ t.Single ∧ t.Tuned ∧
        Withdrawn sub (topicChannel tenantId topic) s.published.length t) ?_
      ⟨run_tidy arrived, run_single arrived, run_tuned arrived, removed_withdrawn reached removed⟩
      (meets.and (.of_absent absent)) h
    rintro u a v ⟨tidy, single, tuned, before⟩ ⟨unheard, other⟩ stepped
    have kept := step_tuned tidy single stepped tuned
    exact ⟨((step_moves stepped).zombies tidy).1, (step_moves stepped).single tidy single, kept,
      step_withdrawn tidy single kept stepped unheard other before⟩
  obtain ⟨later, whole, places⟩ := run_published h
  intro m member own queued
  rw [whole, List.drop_left] at member
  obtain ⟨d, logged, rfl⟩ := List.mem_map.mp queued
  obtain ⟨delivered, named⟩ := List.mem_filter.mp logged
  have early := withdrawn.2.2.2.delivered d delivered (by simpa using named) own
  exact absurd (places _ member) (Nat.not_le_of_lt early)

/-- A client with a topic of its tenant. -/
def guest : List Action :=
  let news := topicChannel "t" "news"
  .subscribe 0 ["inbox"] :: List.replicate 3 (.advance 0 true) ++
    .addSubscription news 0 :: List.replicate 3 (.advanceAdd ⟨0, some news, 1⟩ true)

/-- The task of the topic is told, and returns before the next message or after it. -/
def parting (stopped : Bool) : List Action :=
  let news := topicChannel "t" "news"
  let task : TaskId := ⟨0, some news, 1⟩
  if stopped then [.stop task, .publish news [1], .publish "inbox" [2], .deliver ⟨0, none, 0⟩]
  else [.publish news [1], .deliver task, .stop task]

theorem parting_unsubscribed : ∃ s s' t, run step initial guest = some s ∧
    s.topicUnsubscribe "t" "news" 0 = .ok s' ∧ run step s' (parting true) = some t ∧
      ∀ m ∈ t.published.drop s'.published.length, m.channel = topicChannel "t" "news" →
        m ∉ t.broker.enqueued 0 := by
  let news := topicChannel "t" "news"
  have computed : ((run step initial guest).bind fun s =>
      (s.topicUnsubscribe "t" "news" 0).toOption.bind fun s' =>
        if Meets step (Unheard 0 news) s' (parting true) ∧
            ¬ Occurs step (Resubscribes 0 news) s' (parting true) then
          run step s' (parting true)
        else none).isSome = true := by
    decide +kernel
  obtain ⟨t, ran⟩ := Option.isSome_iff_exists.mp computed
  obtain ⟨s, reached, ran⟩ := Option.bind_eq_some_iff.mp ran
  cases ok : s.topicUnsubscribe "t" "news" 0 with
  | error e => simp only [ok, Except.toOption, Option.bind_none, reduceCtorEq] at ran
  | ok s' =>
    simp only [ok, Except.toOption, Option.bind_some] at ran
    split at ran
    · rename_i tested
      exact ⟨s, s', t, reached, ok, ran, run_unsubscribed reached ok tested.1 tested.2 ran⟩
    · contradiction

/-- The task that was told to stop prefers the message. -/
theorem parting_overheard : ¬ ∀ past rest tenantId topic sub s s' t,
    run step initial past = some s → s.topicUnsubscribe tenantId topic sub = .ok s' →
      ¬ Occurs step (Resubscribes sub (topicChannel tenantId topic)) s' rest →
        run step s' rest = some t →
          ∀ m ∈ t.published.drop s'.published.length, m.channel = topicChannel tenantId topic →
            m ∉ t.broker.enqueued sub := by
  intro claim
  let news := topicChannel "t" "news"
  have computed : ((run step initial guest).bind fun s =>
      (s.topicUnsubscribe "t" "news" 0).toOption.bind fun s' =>
        if Occurs step (Resubscribes 0 news) s' (parting false) then none
        else (run step s' (parting false)).filter fun t =>
          t.published.drop s'.published.length = [⟨news, [1], 0⟩] ∧
            t.broker.enqueued 0 = [⟨news, [1], 0⟩]).isSome = true := by
    decide +kernel
  obtain ⟨t, ran⟩ := Option.isSome_iff_exists.mp computed
  obtain ⟨s, reached, ran⟩ := Option.bind_eq_some_iff.mp ran
  cases ok : s.topicUnsubscribe "t" "news" 0 with
  | error e => simp only [ok, Except.toOption, Option.bind_none, reduceCtorEq] at ran
  | ok s' =>
    simp only [ok, Except.toOption, Option.bind_some] at ran
    split at ran
    · contradiction
    · rename_i absent
      obtain ⟨ran, later⟩ := Option.filter_eq_some_iff.mp ran
      obtain ⟨published, queued⟩ := of_decide_eq_true later
      have none := claim _ _ "t" "news" 0 s s' t reached ok absent ran ⟨news, [1], 0⟩
      rw [published, queued] at none
      exact none List.mem_cons_self rfl List.mem_cons_self

end PubSub
end Propeller
