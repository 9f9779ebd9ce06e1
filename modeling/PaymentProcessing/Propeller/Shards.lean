import Mathlib.Algebra.Order.BigOperators.Group.List
import PaymentProcessing.Propeller.TopicRefinement

/-! The locks of the registry. `add_subscription` keeps the entry that it found, and with it a
shard of the `DashMap`, until Redis has answered; `subscribe` and `unsubscribe` wait for the shard
that they write. Each addition is the one that its handler waits for, so Redis' answers go to
the handlers that hold the locks. -/
namespace Propeller
open Relational Transition

namespace Server
variable {config : ClientConfig} {json : AttributesJson} {s t : Server} {h h' k : Handler}
  {u : Service}

/-- Every addition under way is the one that its handler waits for, and the other way round. -/
structure Awaited (s : Server) : Prop where
  waiting : ∀ a ∈ s.service.adding, ∃ h ∈ s.handlers, h.sub = a.task.sub ∧
    ∃ topic, h.stage = .requesting topic a.task
  adding : ∀ h ∈ s.handlers, ∀ topic task, h.stage = .requesting topic task →
    task.sub = h.sub ∧ ∃ a ∈ s.service.adding, a.task = task

theorem initial_awaited : initial.Awaited := by
  constructor <;> simp [initial, Service.initial]

end Server

/-- Actions that neither begin an addition nor go on with one. -/
def Action.leavesAdding : Action → Bool
  | .topicSubscribe .. | .advanceAdd .. => false
  | _ => true

namespace Service
variable {config : ClientConfig} {json : AttributesJson} {s t : Service}

theorem step_leavesAdding (h : s.step config json a = some t) (leaves : a.leavesAdding = true) :
    t.adding = s.adding := by
  have moves := step_moves h
  cases moves with
  | advance sub c ok _ found advanced => cases advanced <;> rfl
  | topicSubscribe | advanceAdd => contradiction
  | _ => rfl

/-- The next await of an addition. -/
def onward (a : Adding) : Adding :=
  { a with phase := if a.phase = .connecting then .subscribing else .inserting }

/-- An addition goes on under its own task, or is over. -/
theorem advanceAdd_adding (s : Service) (a : Adding) (ok : Bool) (text : String) :
    (s.advanceAdd a ok).adding = (match a.result ok text with
      | none => [onward a]
      | some _ => []) ++ s.adding.filter (·.task ≠ a.task) := by
  obtain ⟨task, channel, phase⟩ := a
  cases phase <;> cases ok <;> rfl

theorem step_topicSubscribe (h : s.step config json (.topicSubscribe sub topic) = some t)
    (found : s.connection sub = some c) (named : scopedTopic c.tenantId topic = .ok channel)
    (checked : s.broker.checkAdd channel sub = .ok ()) :
    t.adding = ⟨⟨sub, some channel, s.next⟩, channel, .connecting⟩ :: s.adding := by
  simp only [step, found, Option.bind_some, named, checked] at h
  split at h
  · cases h
    rfl
  · contradiction

end Service

namespace Server
variable {config : ClientConfig} {json : AttributesJson} {s t : Server} {h h' k : Handler}
  {u : Service}

theorem Awaited.own (before : s.Awaited) (coherent : s.Coherent) (member : h ∈ s.handlers)
    (inside : a ∈ s.service.adding) (same : a.task.sub = h.sub) :
    ∃ topic, h.stage = .requesting topic a.task := by
  obtain ⟨k, present, named, topic, stage⟩ := before.waiting a inside
  cases coherent.distinct.unique present member (named.trans same)
  exact ⟨topic, stage⟩

/-- The turn of one handler is about its own addition. -/
theorem Awaited.turn (before : s.Awaited) (member : h ∈ s.handlers) (same : h'.sub = h.sub)
    (others : ∀ a, a.task.sub ≠ h.sub → (a ∈ u.adding ↔ a ∈ s.service.adding))
    (waiting : ∀ a ∈ u.adding, a.task.sub = h.sub → ∃ topic, h'.stage = .requesting topic a.task)
    (adding : ∀ topic task, h'.stage = .requesting topic task →
      task.sub = h.sub ∧ ∃ a ∈ u.adding, a.task = task) :
    Awaited ⟨u, updateWhere (·.sub == h.sub) (fun _ => h') s.handlers⟩ := by
  constructor
  · intro a inside
    by_cases own : a.task.sub = h.sub
    · refine ⟨h', mem_updateWhere_of_hit member (by simp), same.trans own.symm, waiting a inside own⟩
    · obtain ⟨k, present, named, requesting⟩ := before.waiting a ((others a own).mp inside)
      refine ⟨k, mem_updateWhere_of_miss present ?_, named, requesting⟩
      simpa [named] using own
  · intro x inside topic task stage
    obtain ⟨y, present, rfl⟩ := mem_updateWhere.mp inside
    split at stage <;> rename_i hit
    · rw [if_pos hit, same]
      exact adding topic task stage
    · rw [if_neg hit]
      have other : y.sub ≠ h.sub := by simpa using hit
      obtain ⟨own, a, listed, rfl⟩ := before.adding y present topic task stage
      exact ⟨own, a, (others a (own ▸ other)).mpr listed, rfl⟩

theorem adding_task {a : Adding} (inside : s.service.adding.find? (·.task = task) = some a) :
    a.task = task := by
  simpa using List.find?_some inside

/-- The addition that a handler waits for is its only one, and goes on or is over. -/
theorem Awaited.goesOn {a : Adding} (before : s.Awaited) (coherent : s.Coherent)
    (member : h ∈ s.handlers) (stage : h.stage = .requesting topic task)
    (inside : s.service.adding.find? (·.task = task) = some a)
    (stepped : s.service.step config json (.advanceAdd task ok) = some u) (text : String) :
    ∀ b, b ∈ u.adding ↔ b ∈ (match a.result ok text with
        | none => [Service.onward a]
        | some _ => []) ∨ b ∈ s.service.adding ∧ b.task.sub ≠ h.sub := by
  intro b
  obtain ⟨own, -⟩ := before.adding h member topic task stage
  rw [Service.advanceAdd_of_step inside stepped, Service.advanceAdd_adding s.service a ok text,
    List.mem_append, List.mem_filter]
  refine or_congr_right (and_congr_right fun present => ?_)
  rw [decide_eq_true_eq, adding_task inside]
  refine not_congr ⟨fun same => same ▸ own, fun mine => ?_⟩
  obtain ⟨other, stage'⟩ := before.own coherent member present mine
  cases stage.symm.trans stage'
  rfl

theorem Awaited.moves (before : s.Awaited) (coherent : s.Coherent) (found : s.handler h.sub = some h)
    (moves : h.Moves config json s.service input u h') :
    Awaited ⟨u, updateWhere (·.sub == h.sub) (fun _ => h') s.handlers⟩ := by
  have member := (handler_mem found).1
  -- a turn outside of any addition
  have aside (unasked : ∀ topic task, h.stage ≠ .requesting topic task)
      (still : ∀ topic task, h'.stage ≠ .requesting topic task)
      (adding : u.adding = s.service.adding) :
      Awaited ⟨u, updateWhere (·.sub == h.sub) (fun _ => h') s.handlers⟩ := by
    refine before.turn member moves.sub (fun a _ => by rw [adding]) ?_ ?_
    · intro a inside own
      obtain ⟨topic, stage⟩ := before.own coherent member (adding ▸ inside) own
      exact absurd stage (unasked topic a.task)
    · exact fun topic task stage => absurd stage (still topic task)
  have served {a : Propeller.Action} (stepped : s.service.step config json a = some u)
      (leaves : a.leavesAdding = true) : u.adding = s.service.adding :=
    Service.step_leavesAdding stepped leaves
  cases moves with
  | called ok t c calling stepped =>
    have unasked (topic : String) (task : TaskId) : h.stage ≠ .requesting topic task := by
      rcases calling with stage | stage <;> simp [stage]
    refine aside unasked (fun topic task => ?_) (served stepped rfl)
    unfold Handler.called
    split
    · simp
    · simp [Handler.enter]
    · simp [Handler.enter]
    · exact unasked topic task
  | sent ok output well badly stage => exact aside (by simp [stage]) (by simp [Handler.enter]) rfl
  | sentLast ok output well badly t stage following stepped =>
    exact aside (by simp [stage]) (by simp [Handler.leaving]) (served stepped rfl)
  | quit ok output well badly t stage following stepped =>
    exact aside (by simp [stage]) (by simp [Handler.enter]) (served stepped rfl)
  | left input t waiting other stepped =>
    exact aside (by simp [waiting]) (by simp [Handler.leaving]) (served stepped rfl)
  | idle input waiting other => exact aside (by simp [waiting]) (by simp [waiting]) rfl
  | talks input output well t waiting other loops unasked received =>
    refine aside (by simp [waiting]) (by simp [Handler.enter]) ?_
    rcases received with rfl | stepped
    · rfl
    · exact served stepped rfl
  | refused input request c e waiting => exact aside (by simp [waiting]) (by simp [Handler.reply]) rfl
  | withdrawn input topic c channel broker t waiting asked present named removed stepped =>
    exact aside (by simp [waiting]) (by simp [Handler.reply]) (served stepped rfl)
  | requested input topic c channel t waiting asked present named checked stepped =>
    have adding := Service.step_topicSubscribe stepped present named checked
    refine before.turn member rfl (fun a other => ?_) (fun a inside own => ?_) ?_
    · rw [adding, List.mem_cons]
      exact or_iff_right fun new => other (congrArg (·.task.sub) new)
    · rcases List.mem_cons.mp (adding ▸ inside) with rfl | old
      · exact ⟨topic, rfl⟩
      · obtain ⟨other, stage⟩ := before.own coherent member old own
        rw [waiting] at stage
        cases stage
    · rintro _ _ ⟨⟩
      exact ⟨rfl, _, adding ▸ List.mem_cons_self, rfl⟩
  | adding ok text topic task a t stage inside stepped goes =>
    obtain ⟨own, -⟩ := before.adding h member topic task stage
    have listed := before.goesOn coherent member stage inside stepped text
    simp only [goes] at listed
    refine before.turn member rfl (fun b other => ?_) (fun b present mine => ?_) ?_
    · rw [listed, and_iff_left other]
      refine or_iff_right fun new => other ?_
      rw [List.mem_singleton.mp new]
      exact (adding_task inside).symm ▸ own
    · rcases (listed b).mp present with new | ⟨-, other⟩
      · rw [List.mem_singleton.mp new]
        exact ⟨topic, (adding_task inside).symm ▸ stage⟩
      · exact absurd mine other
    · rintro topic' task' stage'
      cases stage.symm.trans stage'
      exact ⟨own, _, (listed _).mpr (Or.inl List.mem_cons_self), adding_task (a := a) inside⟩
  | added ok text topic task a t result stage inside stepped ended =>
    have listed := before.goesOn coherent member stage inside stepped text
    simp only [ended] at listed
    refine before.turn member rfl (fun b other => ?_) (fun b present mine => ?_) ?_
    · rw [listed, and_iff_left other]
      simp
    · rcases (listed b).mp present with new | ⟨-, other⟩
      · contradiction
      · exact absurd mine other
    · rintro topic' task' ⟨⟩

theorem Moves.awaited (moves : Moves config json s a t) (coherent : s.Coherent)
    (before : s.Awaited) : t.Awaited := by
  cases moves with
  | refused => exact before
  | accepted frontend sub tenantId clientId device channels u connected checked =>
    have adding := Service.step_leavesAdding connected rfl
    constructor
    · intro a inside
      obtain ⟨k, present, named, requesting⟩ := before.waiting a (adding ▸ inside)
      exact ⟨k, List.mem_append_left _ present, named, requesting⟩
    · intro k inside topic task stage
      rcases List.mem_append.mp inside with old | new
      · rw [adding]
        exact before.adding k old topic task stage
      · rw [List.mem_singleton.mp new] at stage
        cases stage
  | turn h input u h' found moved => exact before.moves coherent found moved
  | background a b u other stepped steady =>
    have leaves : b.leavesAdding = true := by
      rcases steady with background | ⟨sub, rfl⟩
      · cases b <;> first | rfl | contradiction
      · rfl
    have adding := Service.step_leavesAdding stepped leaves
    exact ⟨fun a inside => before.waiting a (adding ▸ inside), adding ▸ before.adding⟩

/-- What holds of every reachable server. -/
def Able (s : Server) : Prop := s.Coherent ∧ s.Awaited

theorem step_able (able : s.Able) (stepped : s.step config json a = some t) : t.Able :=
  ⟨(step_moves stepped).coherent able.1, (step_moves stepped).awaited able.1 able.2⟩

/-- The handlers after a turn of one of them. -/
theorem handler_turn (same : h'.sub = h.sub) (sub : Uuid) :
    (⟨u, updateWhere (·.sub == h.sub) (fun _ => h') s.handlers⟩ : Server).handler sub =
      (s.handler sub).map fun k => if k.sub == h.sub then h' else k := by
  have selects : ((fun k : Handler => decide (k.sub = sub)) ∘
      fun k => if (k.sub == h.sub) = true then h' else k) = fun k => decide (k.sub = sub) := by
    funext k
    by_cases hit : k.sub = h.sub
    · simp [hit, same]
    · simp [hit]
  rw [handler, updateWhere, List.find?_map, selects]
  rfl

theorem handler_turned (found : s.handler h.sub = some h) (same : h'.sub = h.sub) :
    (⟨u, updateWhere (·.sub == h.sub) (fun _ => h') s.handlers⟩ : Server).handler h.sub = some h' := by
  rw [handler_turn same, found]
  simp

/-- A shard is locked while a topic of one of its subscriptions is being added. -/
def locked (shard : Uuid → Nat) (s : Server) (sub : Uuid) : Bool :=
  s.service.adding.any fun a => shard a.task.sub = shard sub

/-- The subscription whose entry the action writes: `insert` in `subscribe`, and `remove` in
`unsubscribe`. -/
def writes (config : ClientConfig) (s : Server) : Action → Option Uuid
  | .accept _ sub tenantId clientId device =>
      if (clientChannels config tenantId clientId device).isOk then some sub else none
  | .turn sub (.call _) =>
      (s.service.connection sub).bind fun c => if c.phase = .leaving then some sub else none
  | _ => none

/-- A step of the server that waits for no lock. -/
def lockedStep (shard : Uuid → Nat) (config : ClientConfig) (json : AttributesJson) (s : Server)
    (a : Action) : Option Server :=
  if (s.writes config a).any (s.locked shard) then none else s.step config json a

section Locks
variable {shard : Uuid → Nat}

theorem step_of_locked (stepped : s.lockedStep shard config json a = some t) :
    s.step config json a = some t := by
  unfold lockedStep at stepped
  split at stepped
  · contradiction
  · exact stepped

theorem lockedStep_able (able : s.Able) (stepped : s.lockedStep shard config json a = some t) :
    t.Able :=
  step_able able (step_of_locked stepped)

theorem lockedStep_of_free (free : s.service.adding = []) (a : Action) :
    s.lockedStep shard config json a = s.step config json a := by
  have unlocked : s.locked shard = fun _ => false := by
    funext sub
    simp [locked, free]
  rw [lockedStep, unlocked]
  simp

end Locks

end Server

/-- The steps that an addition is away from its end. -/
def AddPhase.left : AddPhase → Nat
  | .connecting => 3
  | .subscribing => 2
  | .inserting => 1

namespace Service

/-- The steps that the additions under way have yet to make. -/
def backlog (s : Service) : Nat := (s.adding.map (·.phase.left)).sum

theorem backlog_eq_zero {s : Service} : s.backlog = 0 ↔ s.adding = [] := by
  rw [backlog, List.sum_eq_zero_iff]
  constructor
  · intro none_left
    rw [List.eq_nil_iff_forall_not_mem]
    intro a inside
    have answered := none_left _ (List.mem_map_of_mem inside)
    cases phase : a.phase <;> simp [phase, AddPhase.left] at answered
  · intro none_left
    simp [none_left]

theorem onward_left {a : Adding} (goes : a.result ok text = none) :
    (onward a).phase.left < a.phase.left := by
  obtain ⟨task, channel, phase⟩ := a
  cases phase with
  | connecting => exact Nat.lt_succ_self 2
  | subscribing => exact Nat.lt_succ_self 1
  | inserting => contradiction

theorem advanceAdd_backlog {s : Service} (listed : s.adding = a :: others) (ok : Bool) :
    (s.advanceAdd a ok).backlog < s.backlog := by
  have fewer : ((others.filter (·.task ≠ a.task)).map (·.phase.left)).sum ≤
      (others.map (·.phase.left)).sum :=
    (List.filter_sublist.map _).sum_le_sum fun _ _ => Nat.zero_le _
  have pending : 0 < a.phase.left := by
    cases a.phase <;> decide
  rw [backlog, backlog, advanceAdd_adding s a ok "", listed, List.filter_cons_of_neg (by simp),
    List.map_append, List.sum_append, List.map_cons, List.sum_cons]
  cases result : a.result ok "" with
  | none =>
    have onward := onward_left result
    simp only [List.map_cons, List.map_nil, List.sum_cons, List.sum_nil]
    omega
  | some _ =>
    simp only [List.map_nil, List.sum_nil]
    omega

end Service

namespace Server
variable {config : ClientConfig} {json : AttributesJson} {shard : Uuid → Nat} {s t : Server}
  {h h' k : Handler} {u : Service}

/-- An addition under way goes on with what Redis has answered to it. -/
def Answers (redis : Adding → Bool × String) (s : Server) (a : Action) : Prop :=
  ∃ x ∈ s.service.adding, a = .turn x.task.sub (.add (redis x).1 (redis x).2)

/-- No handler ends between the two states. -/
def Outlives (s t : Server) : Prop :=
  ∀ h ∈ s.handlers, h.stage ≠ .ended → ∃ k ∈ t.handlers, k.sub = h.sub ∧ k.stage ≠ .ended

theorem Outlives.refl (s : Server) : s.Outlives s := fun h member going => ⟨h, member, rfl, going⟩

theorem Outlives.trans {v : Server} (first : s.Outlives t) (second : t.Outlives v) :
    s.Outlives v := by
  intro h member going
  obtain ⟨k, present, same, still⟩ := first h member going
  obtain ⟨l, inside, same', remains⟩ := second k present still
  exact ⟨l, inside, same'.trans same, remains⟩

theorem outlives_turn (same : h'.sub = h.sub) (going : h'.stage ≠ .ended) :
    s.Outlives ⟨u, updateWhere (·.sub == h.sub) (fun _ => h') s.handlers⟩ := by
  intro k member still
  by_cases hit : k.sub = h.sub
  · exact ⟨h', mem_updateWhere_of_hit member (by simpa using hit), same.trans hit.symm, going⟩
  · exact ⟨k, mem_updateWhere_of_miss member (by simpa using hit), rfl, still⟩

/-- The handler that waits for an addition takes Redis' answer, and does not end by that. -/
theorem answered (shard : Uuid → Nat) (config : ClientConfig) (json : AttributesJson)
    (able : s.Able) (listed : s.service.adding = a :: others) (ok : Bool) (text : String) :
    ∃ t, s.lockedStep shard config json (.turn a.task.sub (.add ok text)) = some t ∧
      t.service = s.service.advanceAdd a ok ∧ s.Outlives t := by
  obtain ⟨h, member, named, topic, stage⟩ := able.2.waiting a (by simp [listed])
  have found : s.handler a.task.sub = some h := able.1.distinct.find?_of_mem member named
  have inside : s.service.adding.find? (·.task = a.task) = some a := by simp [listed]
  have advanced : s.service.step config json (.advanceAdd a.task ok) =
      some (s.service.advanceAdd a ok) := by
    simp [Service.step, inside]
  obtain ⟨h', moved, same, going⟩ : ∃ h', h.step config json s.service (.add ok text) =
      some (s.service.advanceAdd a ok, h') ∧ h'.sub = h.sub ∧ h'.stage ≠ .ended := by
    cases ended : a.result ok text with
    | none =>
      refine ⟨h, ?_, rfl, by simp [stage]⟩
      simp [Handler.step, Handler.added, stage, inside, advanced, ended]
    | some result =>
      refine ⟨h.reply (.subscribe topic) result.isOk result, ?_, rfl, by simp [Handler.reply]⟩
      simp [Handler.step, Handler.added, stage, inside, advanced, ended]
  refine ⟨⟨s.service.advanceAdd a ok, updateWhere (·.sub == h.sub) (fun _ => h') s.handlers⟩, ?_, rfl,
    outlives_turn same going⟩
  simp [lockedStep, writes, Server.step, found, moved, named]

/-- Whatever Redis answers to the additions under way, they give all locks back, and no handler
ends by that. -/
theorem released (shard : Uuid → Nat) (config : ClientConfig) (json : AttributesJson)
    (able : s.Able) (redis : Adding → Bool × String) :
    ∃ answers t, run (lockedStep shard config json) s answers = some t ∧
      Meets (lockedStep shard config json) (Answers redis) s answers ∧ t.Able ∧
      t.service.adding = [] ∧ s.Outlives t := by
  have goesOn {u : Server} (before : u.Able ∧ s.Outlives u) (waits : u.service.backlog ≠ 0) :
      ∃ a v, Answers redis u a ∧ u.lockedStep shard config json a = some v ∧
        (v.Able ∧ s.Outlives v) ∧ v.service.backlog < u.service.backlog := by
    cases listed : u.service.adding with
    | nil => exact absurd (Service.backlog_eq_zero.mpr listed) waits
    | cons x others =>
      obtain ⟨v, stepped, advanced, outlives⟩ :=
        answered shard config json before.1 listed (redis x).1 (redis x).2
      refine ⟨_, v, ⟨x, by simp [listed], rfl⟩, stepped, ?_, ?_⟩
      · exact ⟨lockedStep_able before.1 stepped, before.2.trans outlives⟩
      · rw [advanced]
        exact Service.advanceAdd_backlog listed (redis x).1
  obtain ⟨answers, t, reached, meets, ⟨able', outlives⟩, done⟩ :=
    drains (fun u : Server => u.service.backlog) goesOn ⟨able, .refl s⟩
  exact ⟨answers, t, reached, meets, able', Service.backlog_eq_zero.mp done, outlives⟩

end Server
end Propeller
