import Mathlib.Logic.Basic
import Mathlib.Data.List.Induction

/-! Executable labeled transition systems. A schedule names every choice of an
interleaving, so a run is a function of its schedule; properties of all runs
quantify over schedules. Step conditions are checked before each action. -/
namespace Transition
variable {S A : Type} {step : S → A → Option S}

/-- Execute a schedule from a state. An action that is not possible where it is
scheduled makes the schedule no run at all. -/
def run (step : S → A → Option S) : S → List A → Option S
  | s, [] => some s
  | s, a :: rest => (step s a).bind fun t => run step t rest

/-- Every action of the schedule meets a condition on it and the state before it. -/
def Meets (step : S → A → Option S) (C : S → A → Prop) : S → List A → Prop
  | _, [] => True
  | s, a :: rest => C s a ∧ ∀ t, step s a = some t → Meets step C t rest

/-- Schedules can be tested against a condition by executing them. -/
instance Meets.decidable {C : S → A → Prop} [∀ s a, Decidable (C s a)] :
    (s : S) → (schedule : List A) → Decidable (Meets step C s schedule)
  | _, [] => .isTrue trivial
  | s, a :: rest =>
      match stepped : step s a with
      | none => decidable_of_iff (C s a) (by simp [Meets, stepped])
      | some t =>
          have : Decidable (Meets step C t rest) := Meets.decidable t rest
          decidable_of_iff (C s a ∧ Meets step C t rest) (by simp [Meets, stepped])

@[simp] theorem run_nil : run step s [] = some s := rfl

theorem run_cons_iff :
    run step s (a :: rest) = some t ↔ ∃ u, step s a = some u ∧ run step u rest = some t := by
  simp only [run, Option.bind_eq_some_iff]

theorem run_append_iff :
    run step s (first ++ second) = some t ↔
      ∃ u, run step s first = some u ∧ run step u second = some t := by
  induction first generalizing s with
  | nil => simp
  | cons a rest ih =>
    simp only [List.cons_append, run_cons_iff, ih]
    constructor
    · rintro ⟨u, stepped, v, left, right⟩
      exact ⟨v, ⟨u, stepped, left⟩, right⟩
    · rintro ⟨v, ⟨u, stepped, left⟩, right⟩
      exact ⟨u, stepped, v, left, right⟩

/-- A schedule may be written in other terms. -/
theorem run_map {B : Type} (f : B → A) (s : S) (schedule : List B) :
    run step s (schedule.map f) = run (fun s b => step s (f b)) s schedule := by
  induction schedule generalizing s with
  | nil => rfl
  | cons b rest ih =>
    simp only [List.map_cons, run]
    exact congrArg _ (funext ih)

/-- A state predicate that holds initially and survives every step holds after
every run. -/
theorem invariant {I : S → Prop} (preserved : ∀ {s a t}, I s → step s a = some t → I t)
    (initial : I s) (h : run step s schedule = some t) : I t := by
  induction schedule generalizing s with
  | nil => cases h; exact initial
  | cons a rest ih =>
    obtain ⟨u, stepped, h⟩ := run_cons_iff.mp h
    exact ih (preserved initial stepped) h

/-- The same rule for an invariant that only the steps meeting a condition keep. -/
theorem invariant_of_meets {I : S → Prop} {C : S → A → Prop}
    (preserved : ∀ {s a t}, I s → C s a → step s a = some t → I t)
    (initial : I s) (meets : Meets step C s schedule) (h : run step s schedule = some t) :
    I t := by
  induction schedule generalizing s with
  | nil => cases h; exact initial
  | cons a rest ih =>
    obtain ⟨u, stepped, h⟩ := run_cons_iff.mp h
    exact ih (preserved initial meets.1 stepped) (meets.2 u stepped) h

/-- A condition may be traded for another one that it implies wherever it was kept. -/
theorem Meets.of_invariant {I : S → Prop} {C D : S → A → Prop}
    (preserved : ∀ {s a t}, I s → C s a → step s a = some t → I t)
    (stronger : ∀ {s a}, I s → C s a → D s a) (initial : I s) (meets : Meets step C s schedule) :
    Meets step D s schedule := by
  induction schedule generalizing s with
  | nil => trivial
  | cons a rest ih =>
    exact ⟨stronger initial meets.1,
      fun t stepped => ih (preserved initial meets.1 stepped) (meets.2 t stepped)⟩

theorem Meets.cons {C : S → A → Prop} (met : C s a) (stepped : step s a = some t)
    (rest : Meets step C t schedule) : Meets step C s (a :: schedule) := by
  refine ⟨met, ?_⟩
  intro u stepped'
  cases stepped.symm.trans stepped'
  exact rest

theorem Meets.mono {C D : S → A → Prop} (weaker : ∀ {s a}, C s a → D s a)
    (meets : Meets step C s schedule) :
    Meets step D s schedule := by
  induction schedule generalizing s with
  | nil => trivial
  | cons a rest ih => exact ⟨weaker meets.1, fun t stepped => ih (meets.2 t stepped)⟩

theorem Meets.and {C D : S → A → Prop} (left : Meets step C s schedule)
    (right : Meets step D s schedule) : Meets step (fun s a => C s a ∧ D s a) s schedule := by
  induction schedule generalizing s with
  | nil => trivial
  | cons a rest ih =>
    exact ⟨⟨left.1, right.1⟩, fun t stepped => ih (left.2 t stepped) (right.2 t stepped)⟩

theorem Meets.append {C : S → A → Prop} (before : Meets step C s first)
    (h : run step s first = some u)
    (after : Meets step C u second) : Meets step C s (first ++ second) := by
  induction first generalizing s with
  | nil => cases h; exact after
  | cons a rest ih =>
    obtain ⟨v, stepped, h⟩ := run_cons_iff.mp h
    exact .cons before.1 stepped (ih (before.2 v stepped) h)

theorem Meets.of_forall {C : A → Prop} (all : ∀ a ∈ schedule, C a) (s : S) :
    Meets step (fun _ a => C a) s schedule := by
  induction schedule generalizing s with
  | nil => trivial
  | cons a rest ih =>
    exact ⟨all a List.mem_cons_self,
      fun t _ => ih (fun b member => all b (List.mem_cons_of_mem a member)) t⟩

theorem Meets.split {C : S → A → Prop} (meets : Meets step C s (first ++ second))
    (h : run step s first = some u) : Meets step C s first ∧ Meets step C u second := by
  induction first generalizing s with
  | nil => cases h; exact ⟨trivial, meets⟩
  | cons a rest ih =>
    obtain ⟨v, stepped, h⟩ := run_cons_iff.mp h
    refine ⟨⟨meets.1, fun t stepped' => ?_⟩, (ih (meets.2 v stepped) h).2⟩
    cases stepped.symm.trans stepped'
    exact (ih (meets.2 v stepped) h).1

theorem Meets.last {C : S → A → Prop} (meets : Meets step C s (first ++ [a]))
    (h : run step s first = some u) : Meets step C s first ∧ C u a := by
  obtain ⟨before, rest⟩ := meets.split h
  exact ⟨before, rest.1⟩

/-- Where an action can be taken as long as there is work, and leaves less of it, all gets done. -/
theorem drains {I : S → Prop} {C : S → A → Prop} (work : S → Nat)
    (goesOn : ∀ {s}, I s → work s ≠ 0 → ∃ a t, C s a ∧ step s a = some t ∧ I t ∧ work t < work s)
    (initial : I s) :
    ∃ schedule t, run step s schedule = some t ∧ Meets step C s schedule ∧ I t ∧ work t = 0 := by
  induction amount : work s using Nat.strongRecOn generalizing s with
  | ind left ih =>
    cases amount
    by_cases none_left : work s = 0
    · exact ⟨[], s, rfl, trivial, initial, none_left⟩
    · obtain ⟨a, u, met, stepped, next, less⟩ := goesOn initial none_left
      obtain ⟨schedule, t, reached, meets, done⟩ := ih (work u) less next rfl
      exact ⟨a :: schedule, t, run_cons_iff.mpr ⟨u, stepped, reached⟩, .cons met stepped meets, done⟩

/-- The predicate holds in every state that a run passes through. -/
def Throughout (step : S → A → Option S) (I : S → Prop) (s : S) (schedule : List A) : Prop :=
  ∀ past rest u, schedule = past ++ rest → run step s past = some u → I u

/-- Where each step keeps a predicate exactly under its condition, a run keeps it
throughout exactly when all its steps meet the condition. -/
theorem throughout_iff {I : S → Prop} {C : S → A → Prop}
    (exact_ : ∀ {s a t}, I s → step s a = some t → (I t ↔ C s a))
    (initial : I s) (h : run step s schedule = some t) :
    Throughout step I s schedule ↔ Meets step C s schedule := by
  constructor
  · intro always
    induction schedule generalizing s with
    | nil => trivial
    | cons a rest ih =>
      obtain ⟨u, stepped, h⟩ := run_cons_iff.mp h
      have next : I u := always [a] rest u rfl (run_cons_iff.mpr ⟨u, stepped, rfl⟩)
      refine .cons ((exact_ initial stepped).mp next) stepped (ih next h ?_)
      intro past rest' v split reached
      exact always (a :: past) rest' v (by rw [split, List.cons_append])
        (run_cons_iff.mpr ⟨u, stepped, reached⟩)
  · intro meets past rest u split reached
    subst split
    obtain ⟨v, first, -⟩ := run_append_iff.mp h
    exact invariant_of_meets (fun before met stepped => (exact_ before stepped).mpr met) initial
      (meets.split first).1 reached

/-- Some action of the schedule is of this kind in the state it is taken in. -/
def Occurs (step : S → A → Option S) (E : S → A → Prop) : S → List A → Prop
  | _, [] => False
  | s, a :: rest => E s a ∨ ∃ t, step s a = some t ∧ Occurs step E t rest

/-- What occurs on a schedule is found by executing it. -/
instance Occurs.decidable {E : S → A → Prop} [∀ s a, Decidable (E s a)] :
    (s : S) → (schedule : List A) → Decidable (Occurs step E s schedule)
  | _, [] => .isFalse id
  | s, a :: rest =>
      match stepped : step s a with
      | none => decidable_of_iff (E s a) (by simp [Occurs, stepped])
      | some t =>
          have : Decidable (Occurs step E t rest) := Occurs.decidable t rest
          decidable_of_iff (E s a ∨ Occurs step E t rest) (by simp [Occurs, stepped])

theorem occurs_append_iff {E : S → A → Prop} (h : run step s first = some u) :
    Occurs step E s (first ++ second) ↔ Occurs step E s first ∨ Occurs step E u second := by
  induction first generalizing s with
  | nil =>
    cases h
    simp only [List.nil_append, Occurs, false_or]
  | cons a rest ih =>
    obtain ⟨v, stepped, h⟩ := run_cons_iff.mp h
    simp only [List.cons_append, Occurs, stepped, Option.some.injEq, exists_eq_left', ih h,
      or_assoc]

/-- What never occurs may be assumed not to happen in any step. -/
theorem Meets.of_absent {E : S → A → Prop} (absent : ¬ Occurs step E s schedule) :
    Meets step (fun s a => ¬ E s a) s schedule := by
  induction schedule generalizing s with
  | nil => trivial
  | cons a rest ih =>
    refine ⟨fun now => absent (Or.inl now), fun t stepped => ih fun later => ?_⟩
    exact absent (Or.inr ⟨t, stepped, later⟩)

/-- Where each step is one of another machine, seen through `view`, or changes nothing there, a
run is a run of that machine. -/
theorem run_simulates {S' A' : Type} {step' : S' → A' → Option S'} {I : S → Prop} (view : S → S')
    (label : A → Option A') (preserved : ∀ {s a t}, I s → step s a = some t → I t)
    (simulates : ∀ {s a t}, I s → step s a = some t →
      run step' (view s) (label a).toList = some (view t))
    (initial : I s) (h : run step s schedule = some t) :
    run step' (view s) (schedule.filterMap label) = some (view t) := by
  induction schedule generalizing s with
  | nil =>
    cases h
    rfl
  | cons a rest ih =>
    obtain ⟨u, stepped, h⟩ := run_cons_iff.mp h
    have whole := run_append_iff.mpr
      ⟨view u, simulates initial stepped, ih (preserved initial stepped) h⟩
    rw [List.filterMap_cons]
    cases seen : label a with
    | none => rwa [seen] at whole
    | some b => rwa [seen] at whole

/-- An invariant may also speak of the actions taken so far. -/
theorem history_of_meets {I : List A → S → Prop} {C : S → A → Prop} {origin : S}
    (preserved : ∀ {past s a t}, run step origin past = some s → I past s → C s a →
      step s a = some t → I (past ++ [a]) t)
    (initial : I [] origin) (meets : Meets step C origin schedule)
    (h : run step origin schedule = some t) : I schedule t := by
  have extends_ (past rest : List A) (s : S) (reached : run step origin past = some s)
      (before : I past s) (meets : Meets step C s rest) (h : run step s rest = some t) :
      I (past ++ rest) t := by
    induction rest generalizing past s with
    | nil =>
      cases h
      rwa [List.append_nil]
    | cons a rest ih =>
      obtain ⟨u, stepped, h⟩ := run_cons_iff.mp h
      have arrived : run step origin (past ++ [a]) = some u :=
        run_append_iff.mpr ⟨s, reached, run_cons_iff.mpr ⟨u, stepped, rfl⟩⟩
      have whole := ih (past ++ [a]) u arrived (preserved reached before meets.1 stepped)
        (meets.2 u stepped) h
      rwa [List.append_assoc] at whole
  exact extends_ [] schedule origin rfl initial meets h

/-- Where each step is matched by steps of another machine, so is a run. The relation between the
two may speak of the actions taken so far, and the other machine keeps to a condition of its own. -/
theorem run_matched {S' A' : Type} {step' : S' → A' → Option S'} {R : List A → S → S' → Prop}
    {C : S → A → Prop} {D : S' → A' → Prop} {origin : S} {origin' : S'}
    (matched : ∀ {past past' s s' a t}, run step' origin' past' = some s' → R past s s' → C s a →
      step s a = some t → ∃ labels t', run step' s' labels = some t' ∧
        Meets step' D s' labels ∧ R (past ++ [a]) t t')
    (initial : R [] origin origin') (meets : Meets step C origin schedule)
    (h : run step origin schedule = some t) :
    ∃ schedule' t', run step' origin' schedule' = some t' ∧ Meets step' D origin' schedule' ∧
      R schedule t t' := by
  induction schedule using List.reverseRecOn generalizing t with
  | nil =>
    cases h
    exact ⟨[], origin', rfl, trivial, initial⟩
  | append_singleton past a ih =>
    obtain ⟨s, reached, last⟩ := run_append_iff.mp h
    obtain ⟨u, stepped, done⟩ := run_cons_iff.mp last
    cases done
    obtain ⟨before, met⟩ := meets.last reached
    obtain ⟨first, s', reached', kept, related⟩ := ih before reached
    obtain ⟨labels, t', onward, keeps, next⟩ := matched reached' related met stepped
    exact ⟨first ++ labels, t', run_append_iff.mpr ⟨s', reached', onward⟩,
      kept.append reached' keeps, next⟩

/-- The predicate on the actions taken and the state reached holds at every point of a run. -/
def AlongHistory (step : S → A → Option S) (I : List A → S → Prop) (origin : S)
    (schedule : List A) : Prop :=
  ∀ past rest u, schedule = past ++ rest → run step origin past = some u → I past u

/-- `throughout_iff` for an invariant that speaks of the actions taken so far. -/
theorem history_iff {I : List A → S → Prop} {C : S → A → Prop} {origin : S}
    (exact_ : ∀ {past s a t}, run step origin past = some s → I past s → step s a = some t →
      (I (past ++ [a]) t ↔ C s a))
    (initial : I [] origin) (h : run step origin schedule = some t) :
    AlongHistory step I origin schedule ↔ Meets step C origin schedule := by
  constructor
  · intro always
    induction schedule using List.reverseRecOn generalizing t with
    | nil => trivial
    | append_singleton past a ih =>
      obtain ⟨u, reached, last⟩ := run_append_iff.mp h
      obtain ⟨v, stepped, done⟩ := run_cons_iff.mp last
      cases done
      have before := ih reached fun first rest w split => always first (rest ++ [a]) w
        (by rw [split, List.append_assoc])
      refine before.append reached (.cons ?_ stepped trivial)
      exact (exact_ reached (always past [a] u rfl reached) stepped).mp
        (always (past ++ [a]) [] _ (List.append_nil _).symm h)
  · intro meets past rest u split reached
    subst split
    obtain ⟨v, first, -⟩ := run_append_iff.mp h
    exact history_of_meets (fun arrived before met stepped => (exact_ arrived before stepped).mpr met)
      initial (meets.split first).1 reached

/-- A record kept along a run, by a rule that sees each action and the state before it. -/
def record {G : Type} (step : S → A → Option S) (note : S → A → G → G) : S → G → List A → G
  | _, g, [] => g
  | s, g, a :: rest =>
      match step s a with
      | some t => record step note t (note s a g) rest
      | none => g

theorem record_append {G : Type} {note : S → A → G → G} {g : G} (h : run step s first = some u)
    (stepped : step u a = some v) :
    record step note s g (first ++ [a]) = note u a (record step note s g first) := by
  induction first generalizing s g with
  | nil =>
    cases h
    simp only [List.nil_append, record, stepped]
  | cons b rest ih =>
    obtain ⟨w, next, h⟩ := run_cons_iff.mp h
    simp only [List.cons_append, record, next]
    exact ih h

/-- Where a process stands that awaits its commands in turn: how many are left, or that one
has failed. -/
inductive Awaiting where
  | commands (left : Nat)
  | failed
  deriving DecidableEq, Repr

/-- Each step awaits one command, which ends well or not; the first that does not ends all. -/
structure InTurn (step : S → Bool → Option S) (view : S → Awaiting) : Prop where
  well : ∀ {s n}, view s = .commands (n + 1) → ∃ t, step s true = some t ∧ view t = .commands n
  badly : ∀ {s n}, view s = .commands (n + 1) → ∃ t, step s false = some t ∧ view t = .failed
  after : ∀ {s t ok}, view s = .commands 0 → step s ok = some t → view t = .commands 0
  ended : ∀ {s ok}, view s = .failed → step s ok = none

section InTurn
variable {awaits : S → Bool → Option S} {view : S → Awaiting}

theorem InTurn.never_fails (turns : InTurn awaits view) (done : view s = .commands 0)
    (h : run awaits s outcomes = some t) : view t = .commands 0 :=
  invariant (I := fun s => view s = .commands 0) turns.after done h

theorem InTurn.failed_run (turns : InTurn awaits view) (failed : view s = .failed) :
    (∃ t, run awaits s outcomes = some t ∧ view t = .failed) ↔ outcomes = [] := by
  cases outcomes with
  | nil => simp [failed]
  | cons ok rest => simp [run, turns.ended failed]

/-- The process fails at one of its commands, after those before it have gone well. -/
theorem InTurn.fails_iff (turns : InTurn awaits view) (waiting : view s = .commands n) :
    (∃ t, run awaits s outcomes = some t ∧ view t = .failed) ↔
      ∃ k < n, outcomes = List.replicate k true ++ [false] := by
  induction n generalizing s outcomes with
  | zero =>
    constructor
    · rintro ⟨t, reached, failed⟩
      cases failed.symm.trans (turns.never_fails waiting reached)
    · rintro ⟨k, less, -⟩
      exact absurd less (Nat.not_lt_zero k)
  | succ n ih =>
    cases outcomes with
    | nil =>
      constructor
      · rintro ⟨t, ⟨⟩, failed⟩
        cases failed.symm.trans waiting
      · rintro ⟨k, -, same⟩
        simp at same
    | cons ok rest =>
      cases ok with
      | true =>
        obtain ⟨u, stepped, next⟩ := turns.well waiting
        have onward : run awaits s (true :: rest) = run awaits u rest := by
          rw [run, stepped, Option.bind_some]
        rw [onward, ih next]
        constructor
        · rintro ⟨k, less, rfl⟩
          exact ⟨k + 1, Nat.succ_lt_succ less, rfl⟩
        · rintro ⟨k, less, same⟩
          cases k with
          | zero => cases same
          | succ k => exact ⟨k, Nat.lt_of_succ_lt_succ less, (List.cons.inj same).2⟩
      | false =>
        obtain ⟨u, stepped, failed⟩ := turns.badly waiting
        have onward : run awaits s (false :: rest) = run awaits u rest := by
          rw [run, stepped, Option.bind_some]
        rw [onward, turns.failed_run failed]
        constructor
        · rintro rfl
          exact ⟨0, Nat.succ_pos n, rfl⟩
        · rintro ⟨k, less, same⟩
          cases k with
          | zero => exact (List.cons.inj same).2
          | succ k => cases same

end InTurn
end Transition
