import Mathlib.Algebra.GroupWithZero.Nat
import PaymentProcessing.Propeller.Fates

/-! The topic controls of the registry beside the listener tasks. A task that is spawned for a
topic works until it is told to stop, and it is told when its control leaves the registry. -/
namespace Propeller
open Relational Transition

namespace PubSub
variable {s t : PubSub}

/-- In the registry, the subscription has no topics and is not being given one. -/
def Spare (s : PubSub) (sub : Uuid) : Prop :=
  ∀ entry ∈ s.broker.subscriptions, entry.id = sub →
    entry.topicControls = [] ∧ ∀ a ∈ s.adding, a.task.sub ≠ sub

instance (s : PubSub) (sub : Uuid) : Decidable (s.Spare sub) := by
  unfold Spare
  infer_instance

/-- Redis connections stay up, and no receiver of events is dropped before `unsubscribe` while
its subscription has topics. -/
def Upheld (s : PubSub) : Action → Prop
  | .hangUp _ => False
  -- a `subscribe` that fails drops the receiver that it was to return
  | .drop sub | .advance sub false => s.Spare sub
  | .addSubscription _ sub =>
      sub ∈ s.broker.dropped → ∀ entry ∈ s.broker.subscriptions, entry.id ≠ sub
  | _ => True

instance (s : PubSub) (a : Action) : Decidable (s.Upheld a) := by
  apply Action.casesOn (motive := fun a => Decidable (s.Upheld a)) a
  case advance => rintro sub (_ | _) <;> (dsimp only [Upheld]; infer_instance)
  all_goals intros; dsimp only [Upheld]; infer_instance

/-- What a step writes to the registry. -/
inductive Registers (s : PubSub) : Action → List ActiveSubscription → Prop where
  | idle (a) : (∀ sub, a ≠ .unsubscribe sub) → Registers s a s.broker.subscriptions
  | entered (sub channels) : s.call sub = none →
      Registers s (.subscribe sub channels) (s.broker.subscriptions ++ [⟨sub, s.next, []⟩])
  | inserted (a ok) : a ∈ s.adding → a.phase = .inserting → Registers s (.advanceAdd a.task ok)
      (s.broker.finishAdd a.channel a.task.sub a.task.number).subscriptions
  | removed (channel sub b) : s.broker.removeSubscription channel sub = .ok b →
      Registers s (.removeSubscription channel sub) b.subscriptions
  | left (sub) : (∀ a ∈ s.adding, a.task.sub ≠ sub) → Registers s (.unsubscribe sub)
      (s.broker.subscriptions.filter (·.id ≠ sub))

/-- The registry has one entry for a subscription and one control for each of its topics, and
a subscription that has topics or is being given one has its receiver. -/
structure Rostered (s : PubSub) : Prop where
  ids : Distinct ActiveSubscription.id s.broker.subscriptions
  called : ∀ entry ∈ s.broker.subscriptions, entry.id ∈ s.calls.map Call.sub
  keys : ∀ entry ∈ s.broker.subscriptions, Distinct Prod.fst entry.topicControls
  apart : Distinct Adding.task s.adding
  adding : ∀ a ∈ s.adding, a.task.sub ∉ s.broker.dropped ∧
    a.task.sub ∈ s.broker.subscriptions.map ActiveSubscription.id
  heard : ∀ claim ∈ s.topicClaims, claim.1.sub ∉ s.broker.dropped

section Rostered

theorem step_registry (stepped : s.step a = some t) : Registers s a t.broker.subscriptions := by
  have moves := step_moves stepped
  cases moves with
  | subscribe sub channels absent => exact .entered sub channels absent
  | advance c ok _ found advanced =>
    cases advanced with
    | _ => exact .idle _ (by simp)
  | advanceAdd a ok _ present adds =>
    cases adds with
    | inserted phase => exact .inserted a ok present phase
    | _ => exact .idle _ (by simp)
  | removeSubscription channel sub b removed => exact .removed channel sub b removed
  | unsubscribe sub idle free =>
    simp only [withBroker, Broker.unsubscribe_subscriptions]
    exact .left sub free
  | turn a b turns =>
    change Registers s a b.subscriptions
    rw [turns.subscriptions]
    cases turns with
    | _ => exact .idle _ (by simp)
  | _ => exact .idle _ (by simp)

theorem Registers.ids (h : Registers s a entries)
    (distinct : Distinct ActiveSubscription.id s.broker.subscriptions)
    (called : ∀ entry ∈ s.broker.subscriptions, entry.id ∈ s.calls.map Call.sub) :
    Distinct ActiveSubscription.id entries := by
  cases h with
  | idle => exact distinct
  | entered sub channels absent =>
    refine distinct.append fun entry registered same => ?_
    obtain ⟨c, member, named⟩ := List.mem_map.mp (called entry registered)
    exact call_fresh absent c member (named.trans same)
  | inserted => exact distinct.updateWhere fun _ => rfl
  | removed channel sub b removed =>
    unfold Distinct
    rwa [Broker.removeSubscription_ids removed]
  | left => exact distinct.filter _

theorem Registers.keys (h : Registers s a entries)
    (keys : ∀ entry ∈ s.broker.subscriptions, Distinct Prod.fst entry.topicControls) :
    ∀ entry ∈ entries, Distinct Prod.fst entry.topicControls := by
  intro entry member
  cases h with
  | idle => exact keys entry member
  | entered =>
    rcases List.mem_append.mp member with old | new
    · exact keys entry old
    · rw [List.mem_singleton.mp new]
      exact List.nodup_nil
  | inserted a =>
    obtain ⟨old, present, rfl⟩ := mem_updateWhere.mp member
    split
    · refine Distinct.append ((keys old present).filter _) fun control inside => ?_
      simpa using (List.mem_filter.mp inside).2
    · exact keys old present
  | removed channel sub b removed =>
    obtain ⟨_, -, -, rfl⟩ := Broker.removeSubscription_ok removed
    obtain ⟨old, present, rfl⟩ := mem_updateWhere.mp member
    split
    · exact (keys old present).filter _
    · exact keys old present
  | left => exact keys entry (List.mem_of_mem_filter member)

/-- An entry stays until `unsubscribe`, which waits for those who add topics to it. -/
theorem Registers.kept (h : Registers s a entries)
    (registered : sub ∈ s.broker.subscriptions.map ActiveSubscription.id) :
    sub ∈ entries.map ActiveSubscription.id ∨
      a = .unsubscribe sub ∧ ∀ x ∈ s.adding, x.task.sub ≠ sub := by
  cases h with
  | idle => exact Or.inl registered
  | entered =>
    rw [List.map_append]
    exact Or.inl (List.mem_append_left _ registered)
  | inserted a =>
    rw [Broker.finishAdd_ids]
    exact Or.inl registered
  | removed channel _ b removed =>
    rw [Broker.removeSubscription_ids removed]
    exact Or.inl registered
  | left other free =>
    by_cases same : sub = other
    · exact Or.inr ⟨same ▸ rfl, same ▸ free⟩
    · obtain ⟨entry, present, rfl⟩ := List.mem_map.mp registered
      exact Or.inl (List.mem_map_of_mem (List.mem_filter.mpr ⟨present, by simpa using same⟩))

/-- The receiver of a subscription that has topics stays. -/
theorem step_heard (upheld : s.Upheld a) (stepped : s.step a = some t)
    (held : sub ∉ s.broker.dropped) (busy : ¬ s.Spare sub) : sub ∉ t.broker.dropped := by
  have other {sub'} (spare : s.Spare sub') : sub ∉ sub' :: s.broker.dropped := by
    intro gone
    rcases List.mem_cons.mp gone with rfl | before
    · exact busy spare
    · exact held before
  have moves := step_moves stepped
  cases moves with
  | unadded | unremoved | publish | addSubscription | subscribe => exact held
  | advance c ok _ found advanced =>
    cases advanced with
    | connected | listening | spawned => exact held
    | unconnected | unsubscribed => exact other upheld
  | advanceAdd a ok _ present adds =>
    cases adds with
    | _ => exact held
  | removeSubscription channel sub' b removed =>
    obtain ⟨_, -, -, rfl⟩ := Broker.removeSubscription_ok removed
    exact held
  | unsubscribe sub' =>
    simp only [withBroker, Broker.unsubscribe]
    split
    · exact held
    · exact held
  | turn a b turns =>
    rcases turns.dropped with same | ⟨gone, rfl, dropped⟩
    · rwa [withBroker, same]
    · rw [withBroker, dropped]
      exact other upheld

theorem Registers.origin (h : Registers s a entries) (member : entry ∈ entries) :
    entry.id ∈ s.broker.subscriptions.map ActiveSubscription.id ∨
      ∃ channels, a = .subscribe entry.id channels := by
  have listed := List.mem_map_of_mem (f := ActiveSubscription.id) member
  cases h with
  | idle => exact Or.inl listed
  | entered sub channels =>
    rcases List.mem_append.mp member with old | new
    · exact Or.inl (List.mem_map_of_mem old)
    · rw [List.mem_singleton.mp new]
      exact Or.inr ⟨channels, rfl⟩
  | inserted a =>
    rw [Broker.finishAdd_ids] at listed
    exact Or.inl listed
  | removed channel sub b removed =>
    rw [Broker.removeSubscription_ids removed] at listed
    exact Or.inl listed
  | left => exact Or.inl (List.mem_map_of_mem (List.mem_of_mem_filter member))

theorem enter_subs (s : PubSub) (sub : Uuid) (stage : CallStage) :
    (s.enter sub stage).calls.map Call.sub = s.calls.map Call.sub :=
  map_updateWhere Call.sub fun _ => rfl

theorem step_called (stepped : s.step a = some t)
    (called : ∀ entry ∈ s.broker.subscriptions, entry.id ∈ s.calls.map Call.sub) :
    ∀ entry ∈ t.broker.subscriptions, entry.id ∈ t.calls.map Call.sub := by
  intro entry member
  have origin : entry.id ∈ s.calls.map Call.sub ∨ ∃ channels, a = .subscribe entry.id channels := by
    refine ((step_registry stepped).origin member).imp_left fun registered => ?_
    obtain ⟨old, present, same⟩ := List.mem_map.mp registered
    exact same ▸ called old present
  have moves := step_moves stepped
  cases moves with
  | subscribe sub channels absent =>
    rw [List.map_append]
    rcases origin with old | ⟨_, new⟩
    · exact List.mem_append_left _ old
    · cases new
      exact List.mem_append_right _ (List.mem_singleton.mpr rfl)
  | advance c ok _ found advanced =>
    have old := origin.resolve_right (by simp)
    cases advanced with
    | _ =>
      rw [enter_subs]
      exact old
  | advanceAdd a ok _ present adds =>
    have old := origin.resolve_right (by simp)
    cases adds with
    | _ => exact old
  | turn a b turns =>
    refine origin.resolve_right ?_
    cases turns with
    | _ => simp
  | _ => exact origin.resolve_right (by simp)

/-- Whoever adds topics was checked before. -/
theorem step_newcomer (stepped : s.step a = some t) (member : x ∈ t.adding) :
    (∃ old ∈ s.adding, old.task = x.task) ∨
      (∃ channel, a = .addSubscription channel x.task.sub) ∧
        x.task.sub ∈ s.broker.subscriptions.map ActiveSubscription.id := by
  have moves := step_moves stepped
  cases moves with
  | addSubscription channel sub checked =>
    rcases List.mem_cons.mp member with rfl | old
    · refine Or.inr ⟨⟨channel, rfl⟩, ?_⟩
      unfold Broker.checkAdd at checked
      split at checked
      · contradiction
      · rename_i entry found
        have named : entry.id = sub := by simpa using List.find?_some found
        exact named ▸ List.mem_map_of_mem (List.mem_of_find?_eq_some found)
    · exact Or.inl ⟨x, old, rfl⟩
  | advance c ok _ found advanced =>
    refine Or.inl ⟨x, ?_, rfl⟩
    cases advanced with
    | _ => exact member
  | advanceAdd a ok _ present adds =>
    refine Or.inl ?_
    cases adds with
    | connected | listening =>
      rcases List.mem_cons.mp member with rfl | other
      · exact ⟨a, present, rfl⟩
      · exact ⟨x, List.mem_of_mem_filter other, rfl⟩
    | unconnected | unsubscribed | inserted => exact ⟨x, List.mem_of_mem_filter member, rfl⟩
  | _ => exact Or.inl ⟨x, member, rfl⟩

theorem step_apart (tidy : s.Tidy) (stepped : s.step a = some t)
    (apart : Distinct Adding.task s.adding) : Distinct Adding.task t.adding := by
  have moves := step_moves stepped
  cases moves with
  | addSubscription channel sub =>
    refine List.nodup_cons.mpr ⟨fun listed => ?_, apart⟩
    obtain ⟨x, present, same⟩ := List.mem_map.mp listed
    have below := tidy.sane.reserved_lt _ (reserved_adding present)
    rw [same] at below
    exact absurd below (Nat.lt_irrefl _)
  | advance c ok _ found advanced =>
    cases advanced with
    | _ => exact apart
  | advanceAdd a ok _ present adds =>
    have fewer : Distinct Adding.task (s.others a) := apart.filter _
    have absent : a.task ∉ (s.others a).map Adding.task := by
      simp [others]
    cases adds with
    | connected | listening => exact List.nodup_cons.mpr ⟨absent, fewer⟩
    | unconnected | unsubscribed | inserted => exact fewer
  | _ => exact apart

theorem Rostered.step (rostered : s.Rostered) (tidy : s.Tidy) (upheld : s.Upheld a)
    (stepped : s.step a = some t) : t.Rostered := by
  have registers := step_registry stepped
  have adding (x) (present : x ∈ s.adding) : x.task.sub ∉ t.broker.dropped := by
    obtain ⟨held, registered⟩ := rostered.adding x present
    obtain ⟨entry, member, same⟩ := List.mem_map.mp registered
    exact step_heard upheld stepped held fun spare => (spare entry member same).2 x present rfl
  refine ⟨registers.ids rostered.ids rostered.called, step_called stepped rostered.called,
    registers.keys rostered.keys, step_apart tidy stepped rostered.apart, fun x member => ?_,
    fun claim claimed => ?_⟩
  · rcases step_newcomer stepped member with ⟨old, present, same⟩ | ⟨⟨channel, rfl⟩, registered⟩
    · rw [← same]
      refine ⟨adding old present, (registers.kept (rostered.adding old present).2).resolve_right ?_⟩
      -- the entry of a subscription that is added to cannot leave
      rintro ⟨-, free⟩
      exact free old present rfl
    · obtain ⟨entry, inside, same⟩ := List.mem_map.mp registered
      have held : x.task.sub ∉ s.broker.dropped := fun gone => upheld gone entry inside same
      have dropped : t.broker.dropped = s.broker.dropped := by
        simp only [PubSub.step] at stepped
        split at stepped
        · cases stepped
          rfl
        · cases stepped
          rfl
      refine ⟨dropped ▸ held, (registers.kept registered).resolve_right ?_⟩
      rintro ⟨other, -⟩
      cases other
  · obtain ⟨task, channel⟩ := claim
    rcases step_topicClaims tidy stepped claimed with old | spawns
    · obtain ⟨entry, registered, number, inside, rfl⟩ := mem_topicClaims.mp old
      refine step_heard upheld stepped (rostered.heard _ old) fun spare => ?_
      exact List.ne_nil_of_mem inside (spare entry registered rfl).1
    · obtain ⟨_, -, number, -, rfl⟩ := mem_topicClaims.mp claimed
      cases spawns with
      | base _ none => cases none
      | topic x ok present phase own =>
        have before := adding x present
        rwa [own] at before

/-- Controls have numbers that were given out. -/
theorem step_controls (stepped : s.step a = some t)
    (controls : ∀ entry ∈ s.broker.subscriptions, entry.control < s.next) :
    ∀ entry ∈ t.broker.subscriptions, entry.control < t.next := by
  have next := step_next stepped
  have registers := step_registry stepped
  generalize t.broker.subscriptions = entries at registers ⊢
  intro entry member
  have old (same : ∃ before ∈ s.broker.subscriptions, before.control = entry.control) :
      entry.control < t.next := by
    obtain ⟨before, present, equal⟩ := same
    exact equal ▸ Nat.lt_of_lt_of_le (controls before present) next
  cases registers with
  | idle => exact old ⟨entry, member, rfl⟩
  | entered sub channels absent =>
    rcases List.mem_append.mp member with before | new
    · exact old ⟨entry, before, rfl⟩
    · rw [List.mem_singleton.mp new]
      simp only [step, absent] at stepped
      cases stepped
      exact Nat.lt_succ_self _
  | inserted a =>
    obtain ⟨before, present, rfl⟩ := mem_updateWhere.mp member
    refine old ⟨before, present, ?_⟩
    split
    · rfl
    · rfl
  | removed channel sub b removed =>
    obtain ⟨_, -, -, rfl⟩ := Broker.removeSubscription_ok removed
    obtain ⟨before, present, rfl⟩ := mem_updateWhere.mp member
    refine old ⟨before, present, ?_⟩
    split
    · rfl
    · rfl
  | left => exact old ⟨entry, List.mem_of_mem_filter member, rfl⟩

end Rostered

/-- Connections are up, a control in the registry has its task at work, and a topic's task without
one is told to stop. -/
structure Manned (s : PubSub) : Prop where
  connected : ∀ l ∈ s.broker.listeners, l.connected = true
  claimed : ∀ claim ∈ s.topicClaims, ∃ l ∈ s.broker.listeners, l.id = claim.1 ∧ l.running = true
  working : ∀ l ∈ s.broker.listeners, ∀ topic, l.id.topic = some topic → l.running = true →
    l.stopping = false → (l.id, topic) ∈ s.topicClaims

section Manned

theorem shutdown_stopping {b : Broker Nat} {tasks : List TaskId} (member : l ∈ (b.shutdown tasks).listeners)
    (told : l.id ∈ tasks) : l.stopping = true := by
  obtain ⟨old, -, rfl⟩ := mem_updateWhere.mp member
  split <;> rename_i hit
  · rfl
  · rw [if_neg hit] at told
    exact absurd (List.contains_iff_mem.mpr told) hit

theorem start_stopping {b : Broker Nat} (told : ∀ l ∈ b.listeners, l.id = task → l.stopping = true)
    (member : l ∈ (b.start other).listeners) (own : l.id = task) : l.stopping = true := by
  obtain ⟨old, present, rfl⟩ := mem_updateWhere.mp member
  split <;> rename_i hit
  · rw [if_pos hit] at own
    exact told old present own
  · rw [if_neg hit] at own
    exact told old present own

/-- A control stays where its entry is rewritten to one that holds it. -/
theorem claim_rewritten {set : ActiveSubscription → ActiveSubscription}
    (registered : entry ∈ s.broker.subscriptions)
    (inside : (channel, number) ∈ entry.topicControls)
    (subscriptions : t.broker.subscriptions = updateWhere (·.id == sub) set s.broker.subscriptions)
    (named : (set entry).id = entry.id)
    (kept : entry.id = sub → (channel, number) ∈ (set entry).topicControls) :
    (⟨entry.id, some channel, number⟩, channel) ∈ t.topicClaims := by
  have rewritten : (if entry.id == sub then set entry else entry) ∈ t.broker.subscriptions := by
    rw [subscriptions]
    exact mem_updateWhere.mpr ⟨entry, registered, rfl⟩
  refine mem_topicClaims.mpr ⟨_, rewritten, number, ?_, ?_⟩
  · split <;> rename_i hit
    · exact kept (by simpa using hit)
    · exact inside
  · split
    · rw [named]
    · rfl

/-- A control leaves the registry by telling its task to stop. -/
theorem claim_told (rostered : s.Rostered) (stepped : s.step a = some t)
    (claimed : (task, channel) ∈ s.topicClaims) :
    (task, channel) ∈ t.topicClaims ∨
      ∀ l ∈ t.broker.listeners, l.id = task → l.stopping = true := by
  have same (subscriptions : t.broker.subscriptions = s.broker.subscriptions) :
      (task, channel) ∈ t.topicClaims := by
    rwa [topicClaims, subscriptions]
  obtain ⟨entry, registered, number, inside, rfl⟩ := mem_topicClaims.mp claimed
  have moves := step_moves stepped
  cases moves with
  | subscribe sub channels =>
    exact Or.inl (mem_topicClaims.mpr
      ⟨entry, List.mem_append_left _ registered, number, inside, rfl⟩)
  | advance c ok _ found advanced =>
    refine Or.inl (same ?_)
    cases advanced with
    | _ => rfl
  | advanceAdd a ok _ present adds =>
    cases adds with
    | inserted phase =>
      by_cases own : entry.id = a.task.sub ∧ channel = a.channel
      · obtain ⟨named, rfl⟩ := own
        refine Or.inr fun l member id => start_stopping ?_ member id
        refine fun l member id => shutdown_stopping member ?_
        refine List.mem_flatMap.mpr ⟨entry, List.mem_filter.mpr ⟨registered, by simpa using named⟩, ?_⟩
        exact mem_topicTasks.mpr ⟨number, inside, id⟩
      · refine Or.inl (claim_rewritten registered inside rfl rfl fun named => ?_)
        refine List.mem_append_left _ (List.mem_filter.mpr ⟨inside, ?_⟩)
        simpa using fun equal => own ⟨named, equal⟩
    | _ => exact Or.inl (same rfl)
  | removeSubscription name sub b removed =>
    obtain ⟨other, present, named, rfl⟩ := Broker.removeSubscription_ok removed
    by_cases own : entry.id = sub ∧ channel = name
    · obtain ⟨equal, rfl⟩ := own
      obtain rfl := rostered.ids.unique registered present (equal.trans named.symm)
      refine Or.inr fun l member id => shutdown_stopping member ?_
      exact mem_topicTasks.mpr ⟨number, inside, id⟩
    · refine Or.inl (claim_rewritten registered inside rfl rfl fun named => ?_)
      refine List.mem_filter.mpr ⟨inside, ?_⟩
      simpa using fun equal => own ⟨named, equal⟩
  | unsubscribe sub idle free =>
    by_cases own : entry.id = sub
    · cases found : s.broker.subscriptions.find? (·.id = sub) with
      | none =>
        have other := List.find?_eq_none.mp found entry registered
        exact absurd own (by simpa using other)
      | some first =>
        have named : first.id = sub := by simpa using List.find?_some found
        obtain rfl := rostered.ids.unique registered (List.mem_of_find?_eq_some found)
          (own.trans named.symm)
        refine Or.inr fun l member id => ?_
        simp only [withBroker, Broker.unsubscribe, found] at member
        refine shutdown_stopping member (List.mem_cons_of_mem _ (List.mem_map.mpr ?_))
        exact ⟨(channel, number), inside, by rw [id, own]⟩
    · refine Or.inl (mem_topicClaims.mpr ⟨entry, ?_, number, inside, rfl⟩)
      simp only [withBroker, Broker.unsubscribe_subscriptions]
      exact List.mem_filter.mpr ⟨registered, by simpa using own⟩
  | turn a b turns => exact Or.inl (same turns.subscriptions)
  | _ => exact Or.inl (same rfl)

theorem inserting_step (rostered : s.Rostered) (present : x ∈ s.adding) (phase : x.phase = .inserting)
    (stepped : s.step (.advanceAdd x.task ok) = some t) :
    t.broker = s.broker.finishAdd x.channel x.task.sub x.task.number := by
  obtain ⟨y, found, rfl⟩ := Option.map_eq_some_iff.mp stepped
  have same : y.task = x.task := by simpa using List.find?_some found
  obtain rfl := rostered.apart.unique (List.mem_of_find?_eq_some found) present same
  simp only [advanceAdd, phase]

theorem inserted_claim (rostered : s.Rostered) (tidy : s.Tidy) (present : x ∈ s.adding)
    (phase : x.phase = .inserting) (stepped : s.step (.advanceAdd x.task ok) = some t)
    (named : x.task.topic = some channel) : (x.task, channel) ∈ t.topicClaims := by
  have topic := tidy.topics x present
  obtain rfl : channel = x.channel := Option.some.inj (named.symm.trans topic)
  obtain ⟨entry, registered, same⟩ := List.mem_map.mp (rostered.adding x present).2
  rw [topicClaims, inserting_step rostered present phase stepped]
  refine List.mem_flatMap.mpr ⟨_, mem_updateWhere_of_hit registered (by simpa using same), ?_⟩
  refine List.mem_map.mpr ⟨(x.channel, x.task.number), ?_, ?_⟩
  · exact List.mem_append_right _ (List.mem_singleton.mpr rfl)
  · simp only [same, ← topic]

theorem Manned.step (manned : s.Manned) (rostered : s.Rostered) (tidy : s.Tidy) (single : s.Single)
    (upheld : s.Upheld a) (stepped : s.step a = some t) : t.Manned := by
  have fates := step_fates tidy single stepped
  refine ⟨fun l' member => ?_, fun claim claimed => ?_, fun l' member topic named running going => ?_⟩
  · rcases fates.backward l' member with ⟨l, present, goes⟩ | ⟨-, new⟩
    · refine (goes.connected (manned.connected l present)).resolve_right ?_
      rintro rfl
      exact upheld
    · rw [new]
  · obtain ⟨task, channel⟩ := claim
    rcases step_topicClaims tidy stepped claimed with old | spawns
    · obtain ⟨l, present, rfl, running⟩ := manned.claimed _ old
      rcases fates.forward l present with ⟨l', member, goes⟩ | leaves
      · exact ⟨l', member, goes.id, goes.running running⟩
      · cases leaves with
        | closed reserved =>
          have idle := tidy.sane.waiting l present reserved
          exact absurd running (by simp [idle.1])
        | stopped _ _ stopping =>
          exact absurd (List.mem_append_right _ old)
            (tidy.sane.stopping l present stopping channel)
        | hungUp _ _ down => exact absurd (manned.connected l present) (by simp [down])
        | unheard _ _ gone => exact absurd gone (rostered.heard _ old)
    · obtain ⟨_, -, number, -, rfl⟩ := mem_topicClaims.mp claimed
      cases spawns with
      | base _ none => cases none
      | topic x ok present phase own =>
        rw [← own] at stepped
        obtain ⟨l, member, id, running, -⟩ := inserted_live (t := t) tidy present phase
          (inserting_step rostered present phase stepped)
        exact ⟨l, member, id.trans own, running⟩
  · rcases fates.backward l' member with ⟨l, present, goes⟩ | ⟨-, new⟩
    · have id := goes.id
      rw [id] at named ⊢
      rcases goes.started running with before | spawns
      · have old := manned.working l present topic named before (goes.stopping going)
        refine (claim_told rostered stepped old).resolve_right fun told => ?_
        exact absurd (told l' member id) (by simp [going])
      · cases spawns with
        | base _ none =>
          rw [none] at named
          cases named
        | topic x ok adding phase own =>
          rw [← own] at stepped named ⊢
          exact inserted_claim rostered tidy adding phase stepped named
    · rw [new] at running
      cases running

/-- Listeners of topics that work. -/
def runningTopics (s : PubSub) : Nat :=
  s.broker.listeners.countP fun l => l.running && l.id.topic.isSome

/-- The (subscription, topic) pairs in the `topic_controls` maps. -/
def pairs (s : PubSub) : Nat :=
  (s.broker.subscriptions.map fun entry => entry.topicControls.length).sum

theorem length_topicClaims (s : PubSub) : s.topicClaims.length = s.pairs := by
  simp only [topicClaims, List.length_flatMap, List.length_map, pairs]

theorem Rostered.claimants (rostered : s.Rostered) : (s.topicClaims.map Prod.fst).Nodup := by
  simp only [topicClaims, List.map_flatMap, List.map_map, Function.comp_def]
  refine List.nodup_flatMap.mpr ⟨fun entry registered => ?_, ?_⟩
  · refine List.Nodup.of_map TaskId.topic ?_
    have keys := (rostered.keys entry registered).map (f := some) fun _ _ => Option.some.inj
    simpa only [List.map_map, Function.comp_def] using keys
  · refine (List.pairwise_map.mp rostered.ids).imp fun different task left right => ?_
    obtain ⟨_, -, rfl⟩ := List.mem_map.mp left
    obtain ⟨_, -, same⟩ := List.mem_map.mp right
    exact different (congrArg TaskId.sub same).symm

/-- When nothing is to stop any more, the tasks at work are those the registry controls. -/
theorem runningTopics_eq_pairs (single : s.Single) (rostered : s.Rostered) (manned : s.Manned)
    (still : ∀ l ∈ s.broker.listeners, l.running = true → l.stopping = false) :
    s.runningTopics = s.pairs := by
  have working : ((s.broker.listeners.filter fun l => l.running && l.id.topic.isSome).map
      Listener.id).Perm (s.topicClaims.map Prod.fst) := by
    refine (List.perm_ext_iff_of_nodup (single.distinct.filter _) rostered.claimants).mpr fun task => ?_
    constructor
    · intro listed
      obtain ⟨l, member, rfl⟩ := List.mem_map.mp listed
      obtain ⟨present, works⟩ := List.mem_filter.mp member
      obtain ⟨running, named⟩ := Bool.and_eq_true_iff.mp works
      obtain ⟨topic, named⟩ := Option.isSome_iff_exists.mp named
      exact List.mem_map.mpr
        ⟨_, manned.working l present topic named running (still l present running), rfl⟩
    · intro listed
      obtain ⟨⟨task, channel⟩, claimed, rfl⟩ := List.mem_map.mp listed
      obtain ⟨l, present, same, running⟩ := manned.claimed _ claimed
      obtain ⟨_, -, number, -, rfl⟩ := mem_topicClaims.mp claimed
      refine List.mem_map.mpr ⟨l, List.mem_filter.mpr ⟨present, ?_⟩, same⟩
      simp [running, same]
  have lengths := working.length_eq
  rw [List.length_map, List.length_map, length_topicClaims] at lengths
  rw [runningTopics, List.countP_eq_length_filter, lengths]

end Manned
end PubSub
end Propeller
