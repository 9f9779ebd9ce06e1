import PaymentProcessing.Propeller.Claims

/-! Each move of the broker as a step of its tasks. -/
namespace Propeller
open Relational

namespace PubSub

section Steps
variable {s t : PubSub}

theorem smooth_removal {b : Broker Nat} (tidy : s.Tidy)
    (removed : s.broker.removeSubscription channel sub = .ok b) :
    Tasks.Smooth s.tasks (s.withBroker b).tasks := by
  obtain ⟨entry, registered, named, state⟩ := Broker.removeSubscription_ok removed
  have subscriptions : (s.withBroker b).broker.subscriptions = _ :=
    congrArg Broker.subscriptions state
  have listeners : b.listeners = _ := congrArg Broker.listeners state
  refine .still (listeners ▸ Tasks.follows_shutdown s.broker _) (fun _ => id) ?_ ?_
  · intro task key claimed
    rcases updated_claims subscriptions (fun _ => rfl) rfl claimed with ⟨old, -⟩ |
      ⟨old, present, number, rfl, -, inside⟩
    · exact old
    · exact List.mem_append_right _ (mem_topicClaims.mpr
        ⟨old, present, number, List.mem_of_mem_filter inside, rfl⟩)
  · intro task hinted
    obtain ⟨number, inside, rfl⟩ := mem_topicTasks.mp hinted
    have claimed : s.tasks.claims ⟨entry.id, some channel, number⟩ channel :=
      List.mem_append_right _ (mem_topicClaims.mpr ⟨entry, registered, number, inside, rfl⟩)
    refine ⟨fun reserved => tidy.sane.unclaimed _ _ reserved claimed, ?_⟩
    intro key still
    rcases updated_claims subscriptions (fun _ => rfl) rfl still with ⟨-, none⟩ |
      ⟨old, present, number', same, -, kept⟩
    · exact absurd (none named) (by simp)
    · simp only [TaskId.mk.injEq, Option.some.injEq] at same
      have other : key ≠ channel := by simpa using (List.mem_filter.mp kept).2
      exact other same.2.1.symm

theorem smooth_unsubscribe
    (idle : ∀ c ∈ s.calls, c.sub = sub → c.stage.isOpening = false)
    (free : ∀ a ∈ s.adding, a.task.sub ≠ sub) :
    Tasks.Smooth s.tasks (s.withBroker (s.broker.unsubscribe sub)).tasks := by
  have subscriptions := Broker.unsubscribe_subscriptions s.broker sub
  have listeners : Tasks.Follows (fun _ => False) (fun _ => False) (·.sub = sub)
      (fun _ => False) s.broker.listeners (s.broker.unsubscribe sub).listeners := by
    unfold Broker.unsubscribe
    split
    · exact .same _
    · rename_i entry found
      refine (Tasks.follows_shutdown s.broker _).told_mono ?_
      intro task hinted
      rcases List.mem_cons.mp hinted with rfl | topic
      · rfl
      · obtain ⟨control, -, rfl⟩ := List.mem_map.mp topic
        rfl
  refine .still listeners (fun _ => id) ?_ ?_
  · intro task channel claimed
    refine claims_subset (s := s) (t := s.withBroker (s.broker.unsubscribe sub)) ?_
      (fun c member _ => member) claimed
    intro entry registered
    rw [show (s.withBroker (s.broker.unsubscribe sub)).broker.subscriptions = _ from subscriptions]
      at registered
    exact Or.inl ⟨entry, List.mem_of_mem_filter registered, rfl, List.Subset.refl _⟩
  · rintro task rfl
    refine ⟨?_, ?_⟩
    · rintro ⟨x, ⟨c, member, setup⟩ | ⟨a, member, rfl⟩, same⟩
      · obtain ⟨task', opening⟩ := Call.setup_task setup
        have ended := idle c member (by rw [← same, task']; rfl)
        exact absurd opening (by simp [ended])
      · exact free a member (by rw [← same, Adding.setup_task])
    · intro channel claimed
      rcases List.mem_append.mp claimed with base | topic
      · obtain ⟨entry, registered, c, member, same, ended, inside, rfl⟩ := mem_baseClaims.mp base
        rw [show (s.withBroker (s.broker.unsubscribe c.task.sub)).broker.subscriptions = _ from
          subscriptions] at registered
        exact absurd same.symm (of_decide_eq_true (List.mem_filter.mp registered).2)
      · obtain ⟨entry, registered, number, inside, rfl⟩ := mem_topicClaims.mp topic
        rw [show (s.withBroker (s.broker.unsubscribe entry.id)).broker.subscriptions = _ from
          subscriptions] at registered
        exact absurd (List.mem_filter.mp registered).2 (by simp)

theorem same_claims (calls : t.calls = s.calls)
    (subscriptions : t.broker.subscriptions = s.broker.subscriptions) :
    t.tasks.claims = s.tasks.claims := by
  simp only [tasks, claims, baseClaims, topicClaims, calls, subscriptions]

theorem reserved_adding (present : a ∈ s.adding) : s.tasks.Reserved a.task :=
  ⟨a.setup, Or.inr ⟨a, present, rfl⟩, a.setup_task⟩

/-- An addition waits for its next call. -/
theorem smooth_going {connects : TaskId → Prop} (tidy : s.Tidy) (present : a ∈ s.adding)
    (listeners : Tasks.Follows (fun _ => False) (fun _ => False) (fun _ => False) connects
      s.broker.listeners t.broker.listeners)
    (own : ∀ task, connects task → task = a.task) (calls : t.calls = s.calls)
    (subscriptions : t.broker.subscriptions = s.broker.subscriptions)
    (adding : t.adding = new :: s.others a) (same : new.task = a.task)
    (wired : t.tasks.Wired new.setup) : Tasks.Smooth s.tasks t.tasks := by
  have claims := same_claims calls subscriptions
  refine ⟨_, _, _, _, ⟨listeners, ?_, ?_, fun _ _ => False.elim, ?_⟩, ?_⟩
  · intro x under
    refine ⟨?_, id, id⟩
    rcases under with call | ⟨b, member, rfl⟩
    · exact Or.inl ⟨(others_setups tidy present calls (Or.inl call)).1, id⟩
    · rw [adding] at member
      rcases List.mem_cons.mp member with rfl | other
      · rw [Adding.setup_task, same]
        exact Or.inr ⟨wired, reserved_adding present⟩
      · exact Or.inl ⟨(others_setups tidy present calls (Or.inr ⟨b, other, rfl⟩)).1, id⟩
  · intro task channel claimed
    exact Or.inl (claims ▸ claimed)
  · intro task connecting
    exact own task connecting ▸ reserved_adding present
  · intro task channel claimed
    exact Or.inl ⟨claims ▸ claimed, id⟩

/-- What `add_subscription` inserts, and the controls that go for it. -/
theorem inserted_claims (tidy : s.Tidy) (present : a ∈ s.adding)
    (subscriptions : t.broker.subscriptions =
      (s.broker.finishAdd a.channel a.task.sub a.task.number).subscriptions)
    (calls : t.calls = s.calls) (claimed : (task, channel) ∈ t.claims) :
    (task, channel) ∈ s.claims ∧ (task.sub = a.task.sub → task.topic ≠ some a.channel) ∨
      task = a.task ∧ channel = a.channel := by
  rcases updated_claims subscriptions (fun _ => rfl) calls claimed with ⟨old, none⟩ |
    ⟨old, registered, number, rfl, named, inside⟩
  · refine Or.inl ⟨old, fun same => ?_⟩
    simp [none same]
  · rcases List.mem_append.mp inside with kept | new
    · obtain ⟨before, other⟩ := List.mem_filter.mp kept
      refine Or.inl ⟨List.mem_append_right _ (mem_topicClaims.mpr
        ⟨old, registered, number, before, rfl⟩), fun _ same => ?_⟩
      exact of_decide_eq_true other (Option.some.inj same)
    · have same := List.mem_singleton.mp new
      simp only [Prod.mk.injEq] at same
      obtain ⟨rfl, rfl⟩ := same
      have topic := tidy.topics a present
      refine Or.inr ⟨?_, rfl⟩
      rw [named, ← topic]

/-- The tasks whose controls an insert replaces. -/
theorem replaced_claimed (hinted : task ∈ (s.broker.subscriptions.filter (·.id = sub)).flatMap
      (Broker.ActiveSubscription.topicTasks · channel)) :
    (task, channel) ∈ s.claims ∧ task.sub = sub ∧ task.topic = some channel := by
  obtain ⟨entry, registered, listed⟩ := List.mem_flatMap.mp hinted
  obtain ⟨registered, named⟩ := List.mem_filter.mp registered
  obtain ⟨number, inside, rfl⟩ := mem_topicTasks.mp listed
  exact ⟨List.mem_append_right _ (mem_topicClaims.mpr ⟨entry, registered, number, inside, rfl⟩),
    of_decide_eq_true named, rfl⟩

/-- The task that is inserted was made for its channel. -/
theorem inserted_live (tidy : s.Tidy) (present : a ∈ s.adding) (inserting : a.phase = .inserting)
    (broker : t.broker = s.broker.finishAdd a.channel a.task.sub a.task.number) :
    t.tasks.Live a.task a.channel := by
  have own : (⟨a.task.sub, some a.channel, a.task.number⟩ : TaskId) = a.task := by
    rw [← tidy.topics a present]
  let replaced : List TaskId := (s.broker.subscriptions.filter (·.id = a.task.sub)).flatMap
    (Broker.ActiveSubscription.topicTasks · a.channel)
  have shut : Tasks.Follows (fun _ => False) (fun _ => False) (· ∈ replaced) (fun _ => False)
      s.broker.listeners (s.broker.shutdown replaced).listeners :=
    Tasks.follows_shutdown s.broker replaced
  have wired : s.tasks.Wired
      ⟨⟨a.task.sub, some a.channel, a.task.number⟩, [a.channel], true, []⟩ := by
    have before := tidy.sane.wired a.setup (Or.inr ⟨a, present, rfl⟩)
    rw [own]
    simpa only [Adding.setup, inserting] using before
  let middle : Tasks Nat := { s.tasks with listeners := (s.broker.shutdown replaced).listeners }
  have still : middle.Wired _ := shut.wired (s := s.tasks) wired id
  have after : t.broker.listeners = ((s.broker.shutdown replaced).start
      ⟨a.task.sub, some a.channel, a.task.number⟩).listeners := by
    rw [broker]
    rfl
  have live := still.start (t := t.tasks) rfl rfl after (List.mem_singleton.mpr rfl)
  rwa [own] at live

theorem smooth_inserted (tidy : s.Tidy) (present : a ∈ s.adding) (inserting : a.phase = .inserting)
    (broker : t.broker = s.broker.finishAdd a.channel a.task.sub a.task.number)
    (calls : t.calls = s.calls) (adding : t.adding = s.others a) :
    Tasks.Smooth s.tasks t.tasks := by
  have own : (⟨a.task.sub, some a.channel, a.task.number⟩ : TaskId) = a.task := by
    rw [← tidy.topics a present]
  let replaced : List TaskId := (s.broker.subscriptions.filter (·.id = a.task.sub)).flatMap
    (Broker.ActiveSubscription.topicTasks · a.channel)
  have shut : Tasks.Follows (fun _ => False) (fun _ => False) (· ∈ replaced) (fun _ => False)
      s.broker.listeners (s.broker.shutdown replaced).listeners :=
    Tasks.follows_shutdown s.broker replaced
  have up : Tasks.Follows (fun _ => False) (· = ⟨a.task.sub, some a.channel, a.task.number⟩)
      (fun _ => False) (fun _ => False) (s.broker.shutdown replaced).listeners
      t.broker.listeners := by
    rw [broker]
    exact Tasks.follows_start _ _
  have subscriptions := congrArg Broker.subscriptions broker
  have others {x : Setup} (under : t.tasks.setups x) : s.tasks.setups x ∧ x.task ≠ a.task :=
    others_setups tidy present calls (adding ▸ under)
  refine ⟨_, _, _, fun _ => False, ⟨shut.trans up, ?_, ?_, ?_, fun _ => False.elim⟩, ?_⟩
  · intro x under
    obtain ⟨old, other⟩ := others under
    refine ⟨Or.inl ⟨old, id⟩, fun starts => other (starts.trans own), fun hinted => ?_⟩
    exact tidy.sane.unclaimed _ _ ⟨x, old, rfl⟩ (replaced_claimed hinted).1
  · intro task channel claimed
    rcases inserted_claims tidy present subscriptions calls claimed with ⟨old, -⟩ | ⟨rfl, -⟩
    · exact Or.inl old
    · refine Or.inr ⟨reserved_adding present, ?_⟩
      rintro ⟨x, under, same⟩
      exact (others under).2 same
  · intro task channel hinted claimed
    obtain ⟨before, sub, topic⟩ := replaced_claimed hinted
    rcases inserted_claims tidy present subscriptions calls claimed with ⟨-, other⟩ | ⟨rfl, -⟩
    · exact other sub topic
    · exact tidy.sane.unclaimed _ _ (reserved_adding present) before
  · intro task channel claimed
    rcases inserted_claims tidy present subscriptions calls claimed with ⟨old, -⟩ | ⟨rfl, rfl⟩
    · exact Or.inl ⟨old, id⟩
    · exact Or.inr (inserted_live tidy present inserting broker)

theorem Adds.smooth (h : Adds s a t) (tidy : s.Tidy) (present : a ∈ s.adding) :
    Tasks.Smooth s.tasks t.tasks := by
  have wired := tidy.sane.wired a.setup (Or.inr ⟨a, present, rfl⟩)
  cases h with
  | connected phase =>
    refine smooth_going tidy present (Tasks.follows_connect s.broker a.task) (fun _ => id) rfl rfl
      rfl rfl ?_
    rw [Adding.setup, phase] at wired
    exact wired.connect rfl rfl
  | unconnected phase =>
    refine .still (.same _) ?_ (fun _ _ => id) (fun _ => False.elim)
    intro x under
    exact (others_setups (t := s) tidy present rfl under).1
  | listening phase =>
    refine smooth_going tidy present (Tasks.follows_listen s.broker a.task a.channel)
      (fun _ => False.elim) rfl rfl rfl rfl ?_
    rw [Adding.setup, phase] at wired
    exact wired.listen rfl rfl rfl rfl
  | unsubscribed phase =>
    refine ⟨_, fun _ => False, _, _, ⟨Tasks.follows_close s.broker a.task, ?_, fun _ _ => Or.inl,
      fun _ _ => False.elim, fun _ => False.elim⟩, ?_⟩
    · intro x under
      obtain ⟨old, other⟩ := others_setups (t := s) tidy present rfl under
      exact ⟨Or.inl ⟨old, other⟩, id, id⟩
    · intro task channel claimed
      refine Or.inl ⟨claimed, ?_⟩
      rintro rfl
      exact tidy.sane.unclaimed _ _ (reserved_adding present) claimed
  | inserted phase => exact smooth_inserted tidy present phase rfl rfl rfl

variable {c : Call} {stage : CallStage}

theorem reserved_call (found : s.call c.sub = some c) (opening : c.stage = .opening up todo) :
    s.tasks.Reserved c.task :=
  ⟨_, setup_of_call found opening, rfl⟩

/-- A `subscribe` waits for its next call. -/
theorem smooth_onward {connects : TaskId → Prop} (tidy : s.Tidy) (found : s.call c.sub = some c)
    (reserved : s.tasks.Reserved c.task)
    (listeners : Tasks.Follows (fun _ => False) (fun _ => False) (fun _ => False) connects
      s.broker.listeners t.broker.listeners)
    (own : ∀ task, connects task → task = c.task)
    (calls : t.calls = (s.enter c.sub (.opening up todo)).calls) (adding : t.adding = s.adding)
    (subscriptions : t.broker.subscriptions = s.broker.subscriptions)
    (wired : t.tasks.Wired ⟨c.task, c.channels, up, todo⟩) : Tasks.Smooth s.tasks t.tasks := by
  have claims {task channel} (claimed : t.tasks.claims task channel) :
      s.tasks.claims task channel := by
    rcases entered_claims tidy found calls subscriptions claimed with old | ⟨ended, -⟩
    · exact old
    · contradiction
  refine ⟨_, _, _, _, ⟨listeners, ?_, fun _ _ claimed => Or.inl (claims claimed),
    fun _ _ => False.elim, ?_⟩, fun _ _ claimed => Or.inl ⟨claims claimed, id⟩⟩
  · intro x under
    refine ⟨?_, id, id⟩
    rcases entered_setups tidy found calls adding under with new | ⟨old, -⟩
    · cases new
      exact Or.inr ⟨wired, reserved⟩
    · exact Or.inl ⟨old, id⟩
  · intro task connecting
    exact own task connecting ▸ reserved

/-- A `subscribe` ends: its task is started, or the connection closed, or neither. -/
theorem settled_step {ended started : TaskId → Prop} (tidy : s.Tidy)
    (found : s.call c.sub = some c) (reserved : s.tasks.Reserved c.task)
    (listeners : Tasks.Follows ended started (fun _ => False) (fun _ => False)
      s.broker.listeners t.broker.listeners)
    (own : ∀ task, ended task ∨ started task → task = c.task) (settled : stage.isOpening = false)
    (calls : t.calls = (s.enter c.sub stage).calls) (adding : t.adding = s.adding)
    (subscriptions : t.broker.subscriptions = s.broker.subscriptions) :
    Tasks.Step ended started (fun _ => False) (fun _ => False) s.tasks t.tasks := by
  have others {x : Setup} (under : t.tasks.setups x) : s.tasks.setups x ∧ x.task ≠ c.task := by
    rcases entered_setups tidy found calls adding under with new | old
    · have opening := (Call.setup_task new).2
      exact absurd opening (by simp [settled])
    · exact old
  refine ⟨listeners, ?_, ?_, fun _ _ => False.elim, fun _ => False.elim⟩
  · intro x under
    obtain ⟨old, other⟩ := others under
    exact ⟨Or.inl ⟨old, fun gone => other (own _ (Or.inl gone))⟩,
      fun starts => other (own _ (Or.inr starts)), id⟩
  · intro task channel claimed
    rcases entered_claims tidy found calls subscriptions claimed with old | ⟨-, rfl, -⟩
    · exact Or.inl old
    · refine Or.inr ⟨reserved, ?_⟩
      rintro ⟨x, under, same⟩
      exact (others under).2 same

/-- A `subscribe` that fails leaves its registry entry, without a listener. -/
theorem failed_iff {ended : TaskId → Prop} (tidy : s.Tidy) (clean : s.tasks.NoneLost)
    (found : s.call c.sub = some c) (opening : c.stage.isOpening = true)
    (reserved : s.tasks.Reserved c.task)
    (own : ∀ task, ended task → task = c.task)
    (step : Tasks.Step ended (fun _ => False) (fun _ => False) (fun _ => False) s.tasks t.tasks)
    (calls : t.calls = (s.enter c.sub .failed).calls)
    (subscriptions : t.broker.subscriptions = s.broker.subscriptions) :
    t.tasks.NoneLost ↔ c.channels = [] := by
  constructor
  · intro none
    refine List.eq_nil_iff_forall_not_mem.mpr fun channel inside => ?_
    have claimed := ended_claims tidy found opening rfl calls subscriptions inside
    exact step.not_live tidy.sane reserved (none _ channel claimed)
  · intro empty
    refine step.noneLost clean fun task channel claimed => Or.inl ?_
    rcases entered_claims tidy found calls subscriptions claimed with old | ⟨-, -, inside⟩
    · refine ⟨old, fun gone => ?_⟩
      rw [own task gone] at old
      exact tidy.sane.unclaimed _ _ reserved old
    · rw [empty] at inside
      contradiction

theorem smooth_spawned (tidy : s.Tidy) (found : s.call c.sub = some c)
    (opening : c.stage = .opening true []) (listeners : t.broker.listeners =
      (s.broker.start c.task).listeners)
    (calls : t.calls = (s.enter c.sub .returned).calls) (adding : t.adding = s.adding)
    (subscriptions : t.broker.subscriptions = s.broker.subscriptions) :
    Tasks.Smooth s.tasks t.tasks := by
  have wired := tidy.sane.wired _ (setup_of_call found opening)
  have step := settled_step tidy found (reserved_call found opening)
    (listeners ▸ Tasks.follows_start s.broker c.task) (fun task h => h.resolve_left id) rfl calls
    adding subscriptions
  refine ⟨_, _, _, _, step, ?_⟩
  intro task channel claimed
  rcases entered_claims tidy found calls subscriptions claimed with old | ⟨-, rfl, inside⟩
  · exact Or.inl ⟨old, id⟩
  · exact Or.inr (wired.start rfl rfl listeners inside)

/-- Nothing happens to the tasks. -/
theorem smooth_idle (listeners : Tasks.Follows (fun _ => False) (fun _ => False) (fun _ => False)
      (fun _ => False) s.broker.listeners t.broker.listeners)
    (calls : t.calls = s.calls) (adding : t.adding = s.adding)
    (subscriptions : t.broker.subscriptions = s.broker.subscriptions) :
    Tasks.Smooth s.tasks t.tasks := by
  refine .still listeners ?_ ?_ fun _ => False.elim
  · intro x under
    simpa only [tasks, calls, adding] using under
  · intro task channel claimed
    rwa [same_claims calls subscriptions] at claimed

/-- The return of a task is missed exactly if it was still to answer for a channel. -/
theorem finished_iff {b : Broker Nat} (tidy : s.Tidy) (clean : s.tasks.NoneLost)
    (finishes : Broker.Finishes s.broker task l b) :
    (s.withBroker b).tasks.NoneLost ↔ ∀ claim ∈ s.claims, claim.1 ≠ task := by
  have claims := same_claims (s := s) (t := s.withBroker b) rfl finishes.subscriptions
  have step := Tasks.Step.finish (t := (s.withBroker b).tasks) tidy.sane finishes rfl rfl rfl claims
  constructor
  · intro none claim claimed same
    have still : (s.withBroker b).tasks.claims claim.1 claim.2 := by
      rw [claims]
      exact claimed
    exact step.lost same still none
  · intro spared
    refine step.noneLost clean fun task' channel claimed => ?_
    rw [claims] at claimed
    exact Or.inl ⟨claimed, spared _ claimed⟩

theorem Tidy.smooth (tidy : s.Tidy) (smooth : Tasks.Smooth s.tasks t.tasks)
    (next : t.next = s.next) (calls : t.calls = s.calls) (adding : t.adding = s.adding)
    (registered : ∀ c ∈ s.calls, c.stage.isOpening = true →
      c.sub ∈ s.broker.subscriptions.map ActiveSubscription.id →
        c.sub ∈ t.broker.subscriptions.map ActiveSubscription.id) : t.Tidy := by
  refine ⟨calls ▸ tidy.distinct, adding ▸ tidy.topics, ?_, next ▸ smooth.sane tidy.sane⟩
  intro c member opening
  rw [calls] at member
  exact registered c member opening (tidy.registered c member opening)

theorem Tidy.entered (tidy : s.Tidy) (found : s.call c.sub = some c)
    (opening : c.stage.isOpening = true) (sane : t.tasks.Sane s.next)
    (calls : t.calls = (s.enter c.sub stage).calls) (next : t.next = s.next)
    (adding : t.adding = s.adding)
    (subscriptions : t.broker.subscriptions = s.broker.subscriptions) : t.Tidy := by
  refine ⟨?_, adding ▸ tidy.topics, ?_, next ▸ sane⟩
  · rw [calls]
    exact tidy.distinct.updateWhere fun _ => rfl
  · intro d member opens
    rw [subscriptions]
    rw [calls] at member
    rcases mem_entered tidy found member with rfl | ⟨old, -⟩
    · exact tidy.registered c (call_mem found).1 opening
    · exact tidy.registered d old opens

/-- A new subscription claims nothing yet: no earlier call has its id. -/
theorem Tidy.subscribe {sub : Uuid} (tidy : s.Tidy) (channels : List String)
    (absent : s.call sub = none) :
    let t : PubSub := { s with
      broker := s.broker.register sub s.next
      calls := s.calls ++ [⟨sub, channels, s.next, .opening false channels⟩]
      next := s.next + 1 }
    t.Tidy ∧ t.claims ⊆ s.claims := by
  intro t
  have fresh := call_fresh absent
  have claims : t.claims ⊆ s.claims := by
    apply claims_subset
    · intro entry registered
      rcases List.mem_append.mp registered with old | new
      · exact Or.inl ⟨entry, old, rfl, List.Subset.refl _⟩
      · rw [List.mem_singleton.mp new]
        exact Or.inr ⟨rfl, fresh⟩
    · intro c member ended
      rcases List.mem_append.mp member with old | new
      · exact old
      · rw [List.mem_singleton.mp new] at ended
        contradiction
  have sane : t.tasks.Sane (s.next + 1) := by
    refine tidy.sane.reserve ⟨⟨sub, none, s.next⟩, channels, false, channels⟩ rfl ⟨rfl, rfl⟩ ?_
      (fun _ _ claimed => claims claimed) rfl
    rintro x (⟨c, member, setup⟩ | added)
    · rcases List.mem_append.mp member with old | new
      · exact Or.inl (Or.inl ⟨c, old, setup⟩)
      · rw [List.mem_singleton.mp new] at setup
        exact Or.inr (Option.some.inj setup).symm
    · exact Or.inl (Or.inr added)
  refine ⟨⟨tidy.distinct.append fresh, tidy.topics, ?_, sane⟩, claims⟩
  intro c member opening
  change c.sub ∈ (s.broker.register sub s.next).subscriptions.map ActiveSubscription.id
  rw [Broker.register, List.map_append, List.mem_append]
  rcases List.mem_append.mp member with old | new
  · exact Or.inl (tidy.registered c old opening)
  · rw [List.mem_singleton.mp new]
    exact Or.inr (List.mem_singleton.mpr rfl)

theorem Tidy.addSubscription (tidy : s.Tidy) (channel : String) (sub : Uuid) : Tidy { s with
    adding := ⟨⟨sub, some channel, s.next⟩, channel, .connecting⟩ :: s.adding
    next := s.next + 1 } := by
  refine ⟨tidy.distinct, ?_, tidy.registered, ?_⟩
  · intro a member
    rcases List.mem_cons.mp member with rfl | old
    · rfl
    · exact tidy.topics a old
  · refine tidy.sane.reserve ⟨⟨sub, some channel, s.next⟩, [channel], false, [channel]⟩ rfl
      ⟨rfl, rfl⟩ ?_ (fun _ _ => id) rfl
    rintro x (call | ⟨a, member, rfl⟩)
    · exact Or.inl (Or.inl call)
    · rcases List.mem_cons.mp member with rfl | old
      · exact Or.inr rfl
      · exact Or.inl (Or.inr ⟨a, old, rfl⟩)

theorem Adds.tidy (h : Adds s a t) (tidy : s.Tidy) (present : a ∈ s.adding) : t.Tidy := by
  have sane := (h.smooth tidy present).sane tidy.sane
  have others : ∀ b ∈ s.others a, b.task.topic = some b.channel :=
    fun b member => tidy.topics b (List.mem_of_mem_filter member)
  have going (phase : AddPhase) :
      ∀ b ∈ { a with phase := phase } :: s.others a, b.task.topic = some b.channel := by
    intro b member
    rcases List.mem_cons.mp member with rfl | other
    · exact tidy.topics a present
    · exact others b other
  cases h with
  | connected => exact ⟨tidy.distinct, going _, tidy.registered, sane⟩
  | unconnected => exact ⟨tidy.distinct, others, tidy.registered, sane⟩
  | listening => exact ⟨tidy.distinct, going _, tidy.registered, sane⟩
  | unsubscribed => exact ⟨tidy.distinct, others, tidy.registered, sane⟩
  | inserted =>
    refine ⟨tidy.distinct, others, ?_, sane⟩
    intro d member opens
    change d.sub ∈ (s.broker.finishAdd _ _ _).subscriptions.map _
    rw [Broker.finishAdd_ids]
    exact tidy.registered d member opens

end Steps

end PubSub
end Propeller
