import PaymentProcessing.Propeller.PubSub
import PaymentProcessing.Propeller.Tasks

/-! Which task answers for which channel in a state of the broker, and which tasks are on
their way: the calls and the registry read as `Tasks`. -/
namespace Propeller
open Relational

/-- The task that a `subscribe` under way is for. -/
def Call.setup (c : Call) : Option Setup :=
  match c.stage with
  | .opening connected todo => some ⟨c.task, c.channels, connected, todo⟩
  | .returned | .failed => none

/-- The task that an `add_subscription` under way is for. -/
def Adding.setup (a : Adding) : Setup :=
  match a.phase with
  | .connecting => ⟨a.task, [a.channel], false, [a.channel]⟩
  | .subscribing => ⟨a.task, [a.channel], true, [a.channel]⟩
  | .inserting => ⟨a.task, [a.channel], true, []⟩

theorem Call.setup_task {c : Call} (under : c.setup = some x) :
    x.task = c.task ∧ c.stage.isOpening = true := by
  unfold Call.setup at under
  split at under <;> rename_i stage
  · cases under
    exact ⟨rfl, by simp [stage, CallStage.isOpening]⟩
  all_goals contradiction

@[simp] theorem Adding.setup_task (a : Adding) : a.setup.task = a.task := by
  unfold Adding.setup
  split
  · rfl
  · rfl
  · rfl

namespace PubSub

/-- The base channels of registered subscriptions, each with the task that is to listen:
from the end of `subscribe` on. -/
def baseClaims (s : PubSub) : List (TaskId × String) :=
  s.broker.subscriptions.flatMap fun entry =>
    (s.calls.filter fun c => c.sub = entry.id ∧ c.stage.isOpening = false).flatMap fun c =>
      c.channels.map fun channel => (c.task, channel)

/-- The keys of `topic_controls`, each with the task that its control sender is for. -/
def topicClaims (s : PubSub) : List (TaskId × String) :=
  s.broker.subscriptions.flatMap fun entry =>
    entry.topicControls.map fun control => (⟨entry.id, some control.1, control.2⟩, control.1)

def claims (s : PubSub) : List (TaskId × String) := s.baseClaims ++ s.topicClaims

def tasks (s : PubSub) : Tasks Nat where
  setups x := (∃ c ∈ s.calls, c.setup = some x) ∨ ∃ a ∈ s.adding, a.setup = x
  claims task channel := (task, channel) ∈ s.claims
  listeners := s.broker.listeners

section Claims
variable {s t : PubSub}

theorem mem_baseClaims : (task, channel) ∈ s.baseClaims ↔
    ∃ entry ∈ s.broker.subscriptions, ∃ c ∈ s.calls,
      c.sub = entry.id ∧ c.stage.isOpening = false ∧ channel ∈ c.channels ∧ task = c.task := by
  simp only [baseClaims, List.mem_flatMap, List.mem_filter, List.mem_map, Prod.mk.injEq,
    decide_eq_true_eq]
  constructor
  · rintro ⟨entry, registered, c, ⟨member, same, ended⟩, _, inside, rfl, rfl⟩
    exact ⟨entry, registered, c, member, same, ended, inside, rfl⟩
  · rintro ⟨entry, registered, c, member, same, ended, inside, rfl⟩
    exact ⟨entry, registered, c, ⟨member, same, ended⟩, channel, inside, rfl, rfl⟩

theorem mem_topicClaims : (task, channel) ∈ s.topicClaims ↔
    ∃ entry ∈ s.broker.subscriptions, ∃ number,
      (channel, number) ∈ entry.topicControls ∧ task = ⟨entry.id, some channel, number⟩ := by
  simp only [topicClaims, List.mem_flatMap, List.mem_map, Prod.mk.injEq]
  constructor
  · rintro ⟨entry, registered, ⟨_, number⟩, inside, rfl, rfl⟩
    exact ⟨entry, registered, number, inside, rfl⟩
  · rintro ⟨entry, registered, number, inside, rfl⟩
    exact ⟨entry, registered, (channel, number), inside, rfl, rfl⟩

/-- No claims come from entries that lose controls and from calls that go on. -/
theorem claims_subset
    (subscriptions : ∀ entry ∈ t.broker.subscriptions,
      (∃ old ∈ s.broker.subscriptions, old.id = entry.id ∧
        entry.topicControls ⊆ old.topicControls) ∨
      entry.topicControls = [] ∧ ∀ c ∈ s.calls, c.sub ≠ entry.id)
    (calls : ∀ c ∈ t.calls, c.stage.isOpening = false → c ∈ s.calls) : t.claims ⊆ s.claims := by
  rintro ⟨task, channel⟩ claimed
  rcases List.mem_append.mp claimed with base | topic
  · obtain ⟨entry, registered, c, member, same, ended, inside, rfl⟩ := mem_baseClaims.mp base
    have before := calls c member ended
    rcases subscriptions entry registered with ⟨old, present, id, -⟩ | ⟨-, absent⟩
    · exact List.mem_append_left _ (mem_baseClaims.mpr
        ⟨old, present, c, before, same.trans id.symm, ended, inside, rfl⟩)
    · exact absurd same (absent c before)
  · obtain ⟨entry, registered, number, inside, rfl⟩ := mem_topicClaims.mp topic
    rcases subscriptions entry registered with ⟨old, present, id, fewer⟩ | ⟨none, -⟩
    · exact List.mem_append_right _ (mem_topicClaims.mpr
        ⟨old, present, number, fewer inside, by rw [id]⟩)
    · rw [none] at inside
      contradiction

end Claims

/-- The calls and the registry that the tasks are read off. -/
structure Tidy (s : PubSub) : Prop where
  distinct : Distinct Call.sub s.calls
  topics : ∀ a ∈ s.adding, a.task.topic = some a.channel
  registered : ∀ c ∈ s.calls, c.stage.isOpening = true →
    c.sub ∈ s.broker.subscriptions.map ActiveSubscription.id
  sane : s.tasks.Sane s.next

section Setups
variable {s t : PubSub} {c : Call} {stage : CallStage}

theorem setup_of_call (found : s.call c.sub = some c)
    (opening : c.stage = .opening connected todo) :
    s.tasks.setups ⟨c.task, c.channels, connected, todo⟩ :=
  Or.inl ⟨c, (call_mem found).1, by rw [Call.setup, opening]⟩

theorem mem_entered (tidy : s.Tidy) (found : s.call c.sub = some c)
    (member : d ∈ (s.enter c.sub stage).calls) :
    d = { c with stage := stage } ∨ d ∈ s.calls ∧ d.sub ≠ c.sub := by
  obtain ⟨old, present, rfl⟩ := mem_updateWhere.mp member
  split <;> rename_i hit
  · have same : old.sub = c.sub := by simpa using hit
    rw [tidy.distinct.unique present (call_mem found).1 same]
    exact Or.inl rfl
  · exact Or.inr ⟨present, by simpa using hit⟩

/-- A call that goes on has its task only. -/
theorem entered_setups (tidy : s.Tidy) (found : s.call c.sub = some c)
    (calls : t.calls = (s.enter c.sub stage).calls) (adding : t.adding = s.adding)
    (under : t.tasks.setups x) :
    Call.setup { c with stage := stage } = some x ∨ s.tasks.setups x ∧ x.task ≠ c.task := by
  rcases under with ⟨d, member, setup⟩ | ⟨a, member, rfl⟩
  · rw [calls] at member
    rcases mem_entered tidy found member with rfl | ⟨old, other⟩
    · exact Or.inl setup
    · refine Or.inr ⟨Or.inl ⟨d, old, setup⟩, ?_⟩
      rw [(Call.setup_task setup).1]
      exact fun same => other (congrArg TaskId.sub same)
  · rw [adding] at member
    refine Or.inr ⟨Or.inr ⟨a, member, rfl⟩, ?_⟩
    rw [Adding.setup_task]
    intro same
    have topic := tidy.topics a member
    rw [same] at topic
    exact absurd topic (by simp [Call.task])

theorem others_setups (tidy : s.Tidy) (present : a ∈ s.adding) (calls : t.calls = s.calls)
    (under : (∃ c ∈ t.calls, c.setup = some x) ∨ ∃ b ∈ s.others a, b.setup = x) :
    s.tasks.setups x ∧ x.task ≠ a.task := by
  rcases under with ⟨d, member, setup⟩ | ⟨b, member, rfl⟩
  · rw [calls] at member
    refine ⟨Or.inl ⟨d, member, setup⟩, ?_⟩
    rw [(Call.setup_task setup).1]
    intro same
    have topic := tidy.topics a present
    rw [← same] at topic
    exact absurd topic (by simp [Call.task])
  · obtain ⟨old, different⟩ := List.mem_filter.mp member
    refine ⟨Or.inr ⟨b, old, rfl⟩, ?_⟩
    rw [Adding.setup_task]
    simpa using different

/-- The end of a call adds its own claims at most. -/
theorem entered_claims (tidy : s.Tidy) (found : s.call c.sub = some c)
    (calls : t.calls = (s.enter c.sub stage).calls)
    (subscriptions : t.broker.subscriptions = s.broker.subscriptions)
    (claimed : (task, channel) ∈ t.claims) :
    (task, channel) ∈ s.claims ∨
      stage.isOpening = false ∧ task = c.task ∧ channel ∈ c.channels := by
  rcases List.mem_append.mp claimed with base | topic
  · obtain ⟨entry, registered, d, member, same, ended, inside, rfl⟩ := mem_baseClaims.mp base
    rw [subscriptions] at registered
    rw [calls] at member
    rcases mem_entered tidy found member with rfl | ⟨old, -⟩
    · exact Or.inr ⟨ended, rfl, inside⟩
    · exact Or.inl (List.mem_append_left _ (mem_baseClaims.mpr
        ⟨entry, registered, d, old, same, ended, inside, rfl⟩))
  · refine Or.inl (List.mem_append_right _ ?_)
    rwa [topicClaims, ← subscriptions]

/-- A call that ends claims its channels: the registry entry is there. -/
theorem ended_claims (tidy : s.Tidy) (found : s.call c.sub = some c)
    (opening : c.stage.isOpening = true) (ends : stage.isOpening = false)
    (calls : t.calls = (s.enter c.sub stage).calls)
    (subscriptions : t.broker.subscriptions = s.broker.subscriptions)
    (inside : channel ∈ c.channels) : (c.task, channel) ∈ t.claims := by
  obtain ⟨member, -⟩ := call_mem found
  obtain ⟨entry, registered, same⟩ := List.mem_map.mp (tidy.registered c member opening)
  refine List.mem_append_left _ (mem_baseClaims.mpr
    ⟨entry, subscriptions ▸ registered, { c with stage := stage }, ?_, same.symm, ends, inside, rfl⟩)
  rw [calls]
  exact mem_updateWhere_of_hit member (beq_self_eq_true _)

end Setups

section Entries
variable {s t : PubSub} {set : ActiveSubscription → ActiveSubscription}

theorem mem_topicTasks {entry : ActiveSubscription} :
    task ∈ Broker.ActiveSubscription.topicTasks entry channel ↔
      ∃ number, (channel, number) ∈ entry.topicControls ∧
        task = ⟨entry.id, some channel, number⟩ := by
  simp only [Broker.ActiveSubscription.topicTasks, List.mem_map, List.mem_filter, decide_eq_true_eq]
  constructor
  · rintro ⟨⟨_, number⟩, ⟨inside, rfl⟩, rfl⟩
    exact ⟨number, inside, rfl⟩
  · rintro ⟨number, inside, rfl⟩
    exact ⟨(channel, number), ⟨inside, rfl⟩, rfl⟩

/-- Claims after the controls of one subscription were rewritten. -/
theorem updated_claims
    (subscriptions : t.broker.subscriptions = updateWhere (·.id == sub) set s.broker.subscriptions)
    (id : ∀ entry, (set entry).id = entry.id) (calls : t.calls = s.calls)
    (claimed : (task, channel) ∈ t.claims) :
    (task, channel) ∈ s.claims ∧ (task.sub = sub → task.topic = none) ∨
    ∃ old ∈ s.broker.subscriptions, ∃ number, task = ⟨old.id, some channel, number⟩ ∧
      old.id = sub ∧ (channel, number) ∈ (set old).topicControls := by
  rcases List.mem_append.mp claimed with base | topic
  · obtain ⟨entry, registered, c, member, same, ended, inside, rfl⟩ := mem_baseClaims.mp base
    rw [subscriptions] at registered
    rw [calls] at member
    obtain ⟨old, present, rfl⟩ := mem_updateWhere.mp registered
    refine Or.inl ⟨List.mem_append_left _ (mem_baseClaims.mpr
      ⟨old, present, c, member, ?_, ended, inside, rfl⟩), fun _ => rfl⟩
    split at same
    · rw [same, id]
    · exact same
  · obtain ⟨entry, registered, number, inside, rfl⟩ := mem_topicClaims.mp topic
    rw [subscriptions] at registered
    obtain ⟨old, present, rfl⟩ := mem_updateWhere.mp registered
    split at inside <;> rename_i hit
    · rw [if_pos hit, id]
      exact Or.inr ⟨old, present, number, rfl, by simpa using hit, inside⟩
    · rw [if_neg hit]
      refine Or.inl ⟨List.mem_append_right _ (mem_topicClaims.mpr
        ⟨old, present, number, inside, rfl⟩), fun named => absurd named (by simpa using hit)⟩

end Entries

end PubSub
end Propeller
