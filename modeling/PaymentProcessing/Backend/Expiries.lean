import PaymentProcessing.Backend.InFlight
import PaymentProcessing.Backend.Refinement

/-! `mark_if_absent` sets a key and then, in a command of its own, the hour after which Redis
is to drop it. A call that does not come to the second command leaves a key for good. -/
namespace PaymentBackend
open Transition

/-- A call of `mark_if_absent` with an expiry of an hour, by the command that it awaits. -/
inductive MarkCall where
  | setNx (key : String)
  | expire (key : String)
  deriving DecidableEq, Repr

def MarkCall.key : MarkCall → String
  | .setNx key | .expire key => key

/-- Execute the awaited command; `none` is the return. -/
def MarkCall.next : MarkCall → Effect Store Failure (Option MarkCall)
  | .setNx key => do
      let wasSet ← PaymentBackend.setNx key
      return if wasSet then some (.expire key) else none
  | .expire key => do
      PaymentBackend.expire key 3600
      return none

/-- The outcomes of a command: the store it leaves and what the call awaits next. -/
inductive Performs (s : Store) : MarkCall → Store → Option MarkCall → Prop where
  | present (key) : s.marked key = true → Performs s (.setNx key) s none
  | set (key) : s.marked key = false → Performs s (.setNx key) (s.putMark key .never) (some (.expire key))
  | expires (key) : s.marked key = true →
      Performs s (.expire key) (s.putMark key (.at (s.now + 3600))) none
  | gone (key) : s.marked key = false → Performs s (.expire key) s none

theorem next_performs (c : MarkCall) (s : Store) :
    ∃ t following, c.next.exec s = (.ok following, t) ∧ Performs s c t following := by
  cases c with
  | setNx key =>
    cases marked : s.marked key with
    | true =>
      refine ⟨s, none, ?_, .present key marked⟩
      simp [MarkCall.next, PaymentBackend.setNx, marked]
    | false =>
      refine ⟨s.putMark key .never, some (.expire key), ?_, .set key marked⟩
      simp [MarkCall.next, PaymentBackend.setNx, marked, Store.putMark]
  | expire key =>
    cases marked : s.marked key with
    | true =>
      refine ⟨s.putMark key (.at (s.now + 3600)), none, ?_, .expires key marked⟩
      simp [MarkCall.next, PaymentBackend.expire, marked, Store.putMark]
    | false =>
      refine ⟨s, none, ?_, .gone key marked⟩
      simp [MarkCall.next, PaymentBackend.expire, marked]

/-- The two commands are `mark_if_absent`. -/
theorem markIfAbsent_commands (key : String) (s : Store) :
    (markIfAbsent key 3600).exec s = match (MarkCall.setNx key).next.exec s with
      | (.ok (some call), t) => ((call.next.exec t).1.map fun _ => true, (call.next.exec t).2)
      | (.ok none, t) => (.ok false, t)
      | (.error e, t) => (.error e, t) := by
  cases marked : s.marked key with
  | true => simp [markIfAbsent, MarkCall.next, PaymentBackend.setNx, Effect.exec_bind, marked]
  | false =>
    have held := s.putMark_self key
    simp only [Store.putMark] at held
    simp [markIfAbsent, MarkCall.next, PaymentBackend.setNx, PaymentBackend.expire, Effect.exec_bind,
      marked, held, Except.map]

/-- The key space and the calls of `mark_if_absent` in progress, one for each worker. -/
structure Marking where
  store : Store
  calls : Nat → Option MarkCall

namespace Marking

inductive Action where
  | elapse (seconds : Nat)
  | call (worker : Nat) (key : String)
  /-- The awaited command takes effect and is answered. -/
  | command (worker : Nat)
  /-- The call returns an error; its command may have taken effect all the same. -/
  | failure (worker : Nat) (applied : Bool)
  | crash (worker : Nat)
  deriving DecidableEq, Repr

def initial : Marking := ⟨.empty, fun _ => none⟩

def enter (s : Marking) (w : Nat) (store : Store) (call : Option MarkCall) : Marking :=
  ⟨store, Function.update s.calls w call⟩

def step (s : Marking) : Action → Option Marking
  | .elapse seconds => some { s with store := { s.store with now := s.store.now + seconds } }
  | .call w key =>
      if (s.calls w).isNone then some (s.enter w s.store (some (.setNx key))) else none
  | .command w => (s.calls w).map fun c =>
      match c.next.exec s.store with
      | (.ok following, t) => s.enter w t following
      | (.error _, t) => s.enter w t none
  | .failure w applied => (s.calls w).map fun c =>
      s.enter w (if applied then (c.next.exec s.store).2 else s.store) none
  | .crash w => some (s.enter w s.store none)

/-- The effects of the actions. -/
inductive Moves (s : Marking) : Action → Marking → Prop where
  | elapse (n) : Moves s (.elapse n) { s with store := { s.store with now := s.store.now + n } }
  | called (w key) : s.calls w = none → Moves s (.call w key) (s.enter w s.store (some (.setNx key)))
  | performed (w c t following) : s.calls w = some c → Performs s.store c t following →
      Moves s (.command w) (s.enter w t following)
  | failed (w applied c t) : s.calls w = some c →
      (applied = false ∧ t = s.store ∨ applied = true ∧ ∃ following, Performs s.store c t following) →
      Moves s (.failure w applied) (s.enter w t none)
  | crashed (w) : Moves s (.crash w) (s.enter w s.store none)

theorem step_moves {s t : Marking} (h : s.step a = some t) : Moves s a t := by
  cases a with
  | elapse n =>
    cases h
    exact .elapse n
  | call w key =>
    simp only [step] at h
    split at h
    · rename_i idle
      cases h
      exact .called w key (by simpa using idle)
    · contradiction
  | command w =>
    obtain ⟨c, found, rfl⟩ := Option.map_eq_some_iff.mp h
    obtain ⟨t, following, answered, performs⟩ := next_performs c s.store
    rw [answered]
    exact .performed w c t following found performs
  | failure w applied =>
    obtain ⟨c, found, rfl⟩ := Option.map_eq_some_iff.mp h
    obtain ⟨t, following, answered, performs⟩ := next_performs c s.store
    cases applied with
    | false => exact .failed w false c s.store found (Or.inl ⟨rfl, rfl⟩)
    | true =>
      rw [answered]
      exact .failed w true c t found (Or.inr ⟨rfl, following, performs⟩)
  | crash w =>
    cases h
    exact .crashed w

section Steps
variable {s t : Marking}

theorem calls_enter (s : Marking) (w : Nat) (store : Store) (call : Option MarkCall) (v : Nat) :
    (s.enter w store call).calls v = if v = w then call else s.calls v := by
  by_cases same : v = w
  · subst same
    simp [enter]
  · simp [enter, same]

/-- A call between its commands has left its key without an expiry, and no other call is there
for that key. -/
structure Held (s : Marking) : Prop where
  never : ∀ w key, s.calls w = some (.expire key) → s.store.marks key = some .never
  alone : ∀ w v key, s.calls w = some (.expire key) → s.calls v = some (.expire key) → v = w

theorem initial_held : initial.Held := by
  constructor
  · intro w key between
    cases between
  · intro w v key between
    cases between

/-- Only worker `w` moves: the keys of the others stay as they are, and are not its own. -/
theorem Held.enter (held : s.Held)
    (others : ∀ v key, v ≠ w → s.calls v = some (.expire key) → u.marks key = some .never)
    (own : ∀ key, call = some (.expire key) →
      u.marks key = some .never ∧ ∀ v ≠ w, s.calls v ≠ some (.expire key)) :
    (s.enter w u call).Held := by
  constructor
  · intro v key between
    rw [calls_enter] at between
    split at between
    · exact (own key between).1
    · rename_i other
      exact others v key other between
  · intro v v' key first second
    rw [calls_enter] at first second
    split at first
    · rename_i same
      split at second
      · rename_i same'
        exact same'.trans same.symm
      · rename_i other
        exact absurd second ((own key first).2 v' other)
    · rename_i other
      split at second
      · exact absurd first ((own key second).2 v other)
      · exact held.alone v v' key first second

theorem marked_never {store : Store} (never : store.marks key = some .never) :
    store.marked key = true := by
  simp [Store.marked, never, Expiry.live]

theorem putMark_other {store : Store} (other : k ≠ key) :
    (store.putMark key expiry).marks k = store.marks k := by
  simp [Store.putMark, other]

/-- A command keeps the calls apart, whether its caller goes on or not. -/
theorem Held.performs (held : s.Held) (found : s.calls w = some c)
    (performs : Performs s.store c u following) (goes : call = following ∨ call = none) :
    (s.enter w u call).Held := by
  cases performs with
  | present key marked =>
    refine held.enter (fun v k _ between => held.never v k between) ?_
    rintro k rfl
    simp at goes
  | set key unmarked =>
    have apart {v k} (between : s.calls v = some (.expire k)) : k ≠ key := by
      rintro rfl
      cases unmarked.symm.trans (marked_never (held.never v k between))
    refine held.enter (fun v k _ between => ?_) ?_
    · rw [putMark_other (apart between)]
      exact held.never v k between
    · rintro k rfl
      have same : k = key := by simpa using goes
      subst same
      exact ⟨by simp [Store.putMark], fun v _ between => apart between rfl⟩
  | expires key marked =>
    refine held.enter (fun v k other between => ?_) ?_
    · have apart : k ≠ key := by
        rintro rfl
        exact other (held.alone w v k found between)
      rw [putMark_other apart]
      exact held.never v k between
    · rintro k rfl
      simp at goes
  | gone key unmarked => cases unmarked.symm.trans (marked_never (held.never w key found))

theorem Moves.held (h : Moves s a t) (held : s.Held) : t.Held := by
  cases h with
  | elapse n => exact ⟨held.never, held.alone⟩
  | called w key idle => exact held.enter (fun v k _ between => held.never v k between) (by simp)
  | performed w c u following found performs => exact held.performs found performs (Or.inl rfl)
  | failed w applied c u found outcome =>
    rcases outcome with ⟨-, rfl⟩ | ⟨-, following, performs⟩
    · exact held.enter (fun v k _ between => held.never v k between) (by simp)
    · exact held.performs found performs (Or.inr rfl)
  | crashed w => exact held.enter (fun v k _ between => held.never v k between) (by simp)

/-- A key without an expiry has a call that is about to give it one. -/
def Expiring (s : Marking) : Prop :=
  ∀ key, s.store.marks key = some .never → ∃ w, s.calls w = some (.expire key)

/-- The call that returns an error in this step has not left its key set: one that waited for
`SETNX` has not set it, and one that had set it has it no longer. -/
def Withdraws (s : Marking) (a : Action) (t : Marking) : Prop :=
  match a with
  | .failure w _ =>
      match s.calls w with
      | some (.setNx key) => t.store.marked key = true → s.store.marked key = true
      | some (.expire key) => t.store.marked key = false
      | none => True
  | _ => True

/-- A call ends between its two commands, or with its `SETNX` done and not known to be. -/
def Strands (s : Marking) : Action → Prop
  | .crash w => ∃ key, s.calls w = some (.expire key)
  | .failure w applied =>
      match s.calls w with
      | some (.setNx key) => applied = true ∧ s.store.marked key = false
      | some (.expire _) => True
      | none => False
  | _ => False

theorem Expiring.enter (expiring : s.Expiring)
    (marks : ∀ key, u.marks key = some .never →
      s.store.marks key = some .never ∨ call = some (.expire key))
    (kept : ∀ key, s.calls w = some (.expire key) → u.marks key ≠ some .never) :
    (s.enter w u call).Expiring := by
  intro key never
  rcases marks key never with before | own
  · obtain ⟨v, between⟩ := expiring key before
    have other : v ≠ w := by
      rintro rfl
      exact kept key between never
    exact ⟨v, by rw [calls_enter, if_neg other]; exact between⟩
  · exact ⟨w, by rw [calls_enter, if_pos rfl]; exact own⟩

theorem Expiring.performs (expiring : s.Expiring) (held : s.Held) (found : s.calls w = some c)
    (performs : Performs s.store c u following) : (s.enter w u following).Expiring := by
  cases performs with
  | present key marked =>
    refine expiring.enter (fun k never => Or.inl never) fun k between => ?_
    cases found.symm.trans between
  | set key unmarked =>
    refine expiring.enter (fun k never => ?_) fun k between => ?_
    · by_cases same : k = key
      · exact Or.inr (by rw [same])
      · exact Or.inl (putMark_other same ▸ never)
    · cases found.symm.trans between
  | expires key marked =>
    refine expiring.enter (fun k never => ?_) fun k between never => ?_
    · by_cases same : k = key
      · simp [Store.putMark, same] at never
      · exact Or.inl (putMark_other same ▸ never)
    · cases found.symm.trans between
      simp [Store.putMark] at never
  | gone key unmarked => cases unmarked.symm.trans (marked_never (held.never w key found))

/-- Where no call is stranded, keys go on expiring. -/
theorem Expiring.step (expiring : s.Expiring) (held : s.Held) (moves : Moves s a t)
    (kept : ¬ s.Strands a) : t.Expiring ∧ s.Withdraws a t := by
  cases moves with
  | elapse n => exact ⟨expiring, trivial⟩
  | called w key idle =>
    refine ⟨expiring.enter (fun k never => Or.inl never) fun k between => ?_, trivial⟩
    cases idle.symm.trans between
  | performed w c u following found performs => exact ⟨expiring.performs held found performs, trivial⟩
  | failed w applied c u found outcome =>
    cases c with
    | expire key => exact absurd (by simp [Strands, found]) kept
    | setNx key =>
      have same : u = s.store := by
        rcases outcome with ⟨-, same⟩ | ⟨rfl, following, performs⟩
        · exact same
        · cases performs with
          | present => rfl
          | set key unmarked => exact absurd (by simp [Strands, found, unmarked]) kept
      subst same
      refine ⟨expiring.enter (fun k never => Or.inl never) fun k between => ?_, ?_⟩
      · cases found.symm.trans between
      · simp only [Withdraws, found]
        exact id
  | crashed w =>
    exact ⟨expiring.enter (fun k never => Or.inl never) fun k between => absurd ⟨k, between⟩ kept,
      trivial⟩

/-- Each step that strands a call leaves its key, for good or with an error. -/
theorem strands_breaks (held : s.Held) (moves : Moves s a t) (strands : s.Strands a) :
    ¬ (t.Expiring ∧ s.Withdraws a t) := by
  rintro ⟨expiring, withdraws⟩
  cases moves with
  | crashed w =>
    obtain ⟨key, between⟩ := strands
    obtain ⟨v, between'⟩ := expiring key (held.never w key between)
    rw [calls_enter] at between'
    split at between'
    · cases between'
    · rename_i other
      exact other (held.alone w v key between between')
  | failed w applied c u found outcome =>
    cases c with
    | setNx key =>
      simp only [Strands, found] at strands
      obtain ⟨rfl, unmarked⟩ := strands
      simp only [Withdraws, found] at withdraws
      rcases outcome with ⟨⟨⟩, -⟩ | ⟨-, following, performs⟩
      cases performs with
      | present key marked => cases unmarked.symm.trans marked
      | set key _ => cases unmarked.symm.trans (withdraws (s.store.putMark_self key))
    | expire key =>
      simp only [Withdraws, found] at withdraws
      have marked := marked_never (held.never w key found)
      rcases outcome with ⟨-, rfl⟩ | ⟨-, following, performs⟩
      · cases withdraws.symm.trans marked
      · cases performs with
        | gone key unmarked => cases unmarked.symm.trans marked
        | expires key _ => simp [enter, Store.marked, Store.putMark, Expiry.live] at withdraws
  | _ => cases strands

/-- A stranding step can be taken wherever it is meant. -/
theorem strands_steps (strands : s.Strands a) : ∃ t, s.step a = some t := by
  cases a with
  | crash w => exact ⟨_, rfl⟩
  | failure w applied =>
    cases found : s.calls w with
    | none => simp [Strands, found] at strands
    | some c => exact ⟨_, by simp only [Marking.step, found, Option.map_some]; rfl⟩
  | _ => cases strands

end Steps

/-- After the step every key without an expiry has its call, and no error has left a key. -/
def Keeps (s : Marking) (a : Action) : Prop := ∀ t, s.step a = some t → t.Expiring ∧ s.Withdraws a t

/-- No call is between its two commands. -/
def Quiet (s : Marking) : Prop := ∀ w key, s.calls w ≠ some (.expire key)

/-- In every state of the run in which no call is between its commands every key has an expiry,
and no call that returned an error has left its key set. -/
def MarksExpire (schedule : List Action) : Prop :=
  Throughout step (fun s => s.Quiet → ∀ key, s.store.marks key ≠ some .never) initial schedule ∧
    Meets step (fun s a => ∀ t, s.step a = some t → s.Withdraws a t) initial schedule

theorem initial_expiring : initial.Expiring := by
  intro key never
  cases never

theorem Expiring.quiet {s : Marking} (expiring : s.Expiring) (quiet : s.Quiet) (key : String) :
    s.store.marks key ≠ some .never := by
  intro never
  obtain ⟨w, between⟩ := expiring key never
  exact quiet w key between

/-- The marks of a run keep expiring exactly where no step strands a call. -/
theorem meets_keeps_iff (schedule : List Action) :
    Meets step Keeps initial schedule ↔ Meets step (fun s a => ¬ s.Strands a) initial schedule := by
  constructor
  · intro keeps
    refine keeps.of_invariant (I := Held) ?_ ?_ initial_held
    · intro s a t held _ stepped
      exact (step_moves stepped).held held
    · intro s a held keeps strands
      obtain ⟨t, stepped⟩ := strands_steps strands
      exact strands_breaks held (step_moves stepped) strands (keeps t stepped)
  · intro kept
    refine kept.of_invariant (I := fun s => s.Held ∧ s.Expiring) ?_ ?_ ⟨initial_held, initial_expiring⟩
    · rintro s a t ⟨held, expiring⟩ kept stepped
      exact ⟨(step_moves stepped).held held, (expiring.step held (step_moves stepped) kept).1⟩
    · rintro s a ⟨held, expiring⟩ kept t stepped
      exact expiring.step held (step_moves stepped) kept

theorem marksExpire_of_kept (reached : run step initial schedule = some s)
    (kept : Meets step (fun s a => ¬ s.Strands a) initial schedule) : MarksExpire schedule := by
  have keeps := (meets_keeps_iff schedule).mpr kept
  constructor
  · intro past rest u split reached'
    subst split
    obtain ⟨u', first, -⟩ := run_append_iff.mp reached
    cases first.symm.trans reached'
    have expiring : u.Expiring := by
      refine invariant_of_meets (I := Expiring) ?_ initial_expiring (keeps.split first).1 first
      intro s a t _ keeps stepped
      exact (keeps t stepped).1
    exact expiring.quiet
  · exact keeps.mono fun keeps t stepped => (keeps t stepped).2

/-- In a run without a stranded call marks expire; and exactly in such a run no step leaves a
key without an expiry and without a call about to give it one, or behind an error. -/
theorem marks_expire_iff (schedule : List Action) :
    (Meets step (fun s a => ¬ s.Strands a) initial schedule →
      ∀ s, run step initial schedule = some s → MarksExpire schedule) ∧
    (Meets step Keeps initial schedule ↔ Meets step (fun s a => ¬ s.Strands a) initial schedule) :=
  ⟨fun kept _ reached => marksExpire_of_kept reached kept, meets_keeps_iff schedule⟩

def sampleKey : String := idemKey Sample.event

/-- Two workers come with one event; the second finds the key before it has its expiry. -/
def contended : List Action :=
  [.call 0 sampleKey, .call 1 sampleKey, .command 0, .command 1, .command 0, .elapse 3599]

theorem contended_expires : ∃ s, run step initial contended = some s ∧ MarksExpire contended ∧
    s.store.marks sampleKey = some (.at 3600) := by
  have calm : ∀ a ∈ contended, ∀ s : Marking, ¬ s.Strands a := by simp [contended, Strands]
  refine ⟨_, rfl, (marks_expire_iff contended).1 ?_ _ rfl, rfl⟩
  exact (Meets.of_forall calm initial).mono fun never => never _

/-- A worker crashes between the two commands of its call. -/
def crashed : List Action := [.call 0 sampleKey, .command 0, .crash 0, .elapse 1000000]

/-- Redis fails the second command of a call. -/
def unexpired : List Action := [.call 0 sampleKey, .command 0, .failure 0 false]

theorem crashed_never : ¬ MarksExpire crashed ∧ ¬ MarksExpire unexpired := by
  constructor
  · rintro ⟨always, -⟩
    refine always crashed [] _ rfl rfl ?_ sampleKey ?_
    · intro w key
      change (((initial.enter 0 _ _).enter 0 _ _).enter 0 _ none).calls w ≠ _
      by_cases same : w = 0 <;> simp [calls_enter, same, initial]
    · change (Store.empty.putMark sampleKey .never).marks sampleKey = _
      simp [Store.putMark]
  · rintro ⟨-, withdraws⟩
    have unset : (Store.empty.putMark sampleKey .never).marked sampleKey = false :=
      ((withdraws.2 _ rfl).2 _ rfl).1 _ rfl
    cases unset.symm.trans (Store.empty.putMark_self sampleKey)

end Marking
/-! ## The calls of the workers -/

/-- The call of `mark_if_absent` that `handle_event` is in. -/
def Handling.markCall (env : Externals) : Handling → Option MarkCall
  | .mark payload => (env.fromJson payload).map fun event => .setNx (idemKey event)
  | .expire _ event => some (.expire (idemKey event))
  | .log .. | .pay .. | .publish .. => none

section Workers
variable {env : Externals} {r s t : Store} {handling : Handling}

theorem markCall_setNx (call : handling.markCall env = some (.setNx key)) :
    ∃ payload event, handling = .mark payload ∧ env.fromJson payload = some event ∧
      idemKey event = key := by
  cases handling with
  | mark payload =>
    obtain ⟨event, decoded, same⟩ := Option.map_eq_some_iff.mp call
    cases same
    exact ⟨payload, event, rfl, decoded, rfl⟩
  | _ => cases call

theorem markCall_expire (call : handling.markCall env = some (.expire key)) :
    ∃ payload event, handling = .expire payload event := by
  cases handling with
  | mark payload =>
    obtain ⟨event, decoded, same⟩ := Option.map_eq_some_iff.mp call
    cases same
  | expire payload event => exact ⟨payload, event, rfl⟩
  | _ => cases call

theorem putMark_marks (marks : r.marks = s.marks) :
    (r.putMark key expiry).marks = (s.putMark key expiry).marks := by
  simp only [Store.putMark, marks]

/-- A statement of `handle_event` inside such a call is its next command. -/
theorem Executes.command (h : Executes env s handling t answer)
    (call : handling.markCall env = some c) (marks : r.marks = s.marks) (now : r.now = s.now) :
    ∃ u, c.next.exec r = (.ok ((continuation answer).bind (Handling.markCall env)), u) ∧
      u.marks = t.marks ∧ u.now = t.now := by
  have same (key : String) : r.marked key = s.marked key := by rw [Store.marked, Store.marked, marks, now]
  cases h with
  | malformed decoded => simp [Handling.markCall, decoded] at call
  | duplicate decoded marked =>
    cases (by simpa [Handling.markCall, decoded] using call : _ = c)
    refine ⟨r, ?_, marks, now⟩
    simp [MarkCall.next, PaymentBackend.setNx, same, marked, continuation]
  | marked decoded unmarked =>
    cases (by simpa [Handling.markCall, decoded] using call : _ = c)
    refine ⟨r.putMark _ .never, ?_, putMark_marks marks, now⟩
    simp [MarkCall.next, PaymentBackend.setNx, same, unmarked, continuation, Store.putMark,
      Handling.markCall]
  | expired marked =>
    cases call
    refine ⟨r.putMark _ (.at (s.now + 3600)), ?_, putMark_marks marks, now⟩
    simp [MarkCall.next, PaymentBackend.expire, same, marked, now, continuation, Store.putMark,
      Handling.markCall]
  | gone unmarked =>
    cases call
    refine ⟨r, ?_, marks, now⟩
    simp [MarkCall.next, PaymentBackend.expire, same, unmarked, continuation, Handling.markCall]
  | _ => cases call

/-- The other statements leave the keys alone. -/
theorem Executes.aside (h : Executes env s handling t answer) (call : handling.markCall env = none) :
    t.marks = s.marks ∧ t.now = s.now ∧ (continuation answer).bind (Handling.markCall env) = none := by
  cases h with
  | duplicate decoded | marked decoded => simp [Handling.markCall, decoded] at call
  | expired | gone => cases call
  | _ => exact ⟨rfl, rfl, rfl⟩

end Workers

namespace Services
variable {env : Externals} {gateways : List PaymentGateway} {s t : Services} {m : Marking}

/-- The key space and the calls of the workers are those of the other system. -/
structure Marks (env : Externals) (s : Services) (m : Marking) : Prop where
  marks : m.store.marks = s.store.marks
  now : m.store.now = s.store.now
  calls : ∀ w, m.calls w = (s.call w).bind (Handling.markCall env)

/-- A call of `mark_if_absent` ends here between its commands, or without knowing of its `SETNX`. -/
def Strands (env : Externals) (s : Services) : Action → Prop
  | .crash w => ∃ payload event, s.call w = some (.expire payload event)
  | .failure w applied => (∃ payload event, s.call w = some (.expire payload event)) ∨
      applied = true ∧ ∃ payload event, s.call w = some (.mark payload) ∧
        env.fromJson payload = some event ∧ s.store.marked (idemKey event) = false
  | _ => False

/-- Worker `w` comes to stand somewhere else, and the key space with it. -/
theorem Marks.enter (marks : s.Marks env m) (keys : u.marks = t.store.marks) (now : u.now = t.store.now)
    (call : call' = (t.call w).bind (Handling.markCall env))
    (others : ∀ v ≠ w, t.call v = s.call v) : t.Marks env (m.enter w u call') := by
  refine ⟨keys, now, fun v => ?_⟩
  rw [Marking.calls_enter]
  split
  · rename_i same
    rw [same, call]
  · rename_i other
    rw [others v other]
    exact marks.calls v

/-- A step that no call of `mark_if_absent` is in. -/
theorem Marks.congr (marks : s.Marks env m) (keys : t.store.marks = s.store.marks)
    (now : t.store.now = s.store.now)
    (calls : ∀ w, (t.call w).bind (Handling.markCall env) = (s.call w).bind (Handling.markCall env)) :
    t.Marks env m :=
  ⟨marks.marks.trans keys.symm, marks.now.trans now.symm, fun w => (marks.calls w).trans (calls w).symm⟩

/-- From `m` calls of `mark_if_absent`, none of them stranded, lead to what `t` holds. -/
def Followed (env : Externals) (t : Services) (m : Marking) : Prop :=
  ∃ commands n, run Marking.step m commands = some n ∧ t.Marks env n ∧
    Meets Marking.step (fun m c => ¬ m.Strands c) m commands

theorem Marks.followed (marks : t.Marks env m) : t.Followed env m := ⟨[], m, rfl, marks, trivial⟩

theorem Marks.one {c : Marking.Action} {n : Marking} (marks : t.Marks env n)
    (stepped : m.step c = some n) (kept : ¬ m.Strands c) : t.Followed env m :=
  ⟨[c], n, run_cons_iff.mpr ⟨n, stepped, rfl⟩, marks, kept, fun _ _ => trivial⟩

theorem Marks.call (marks : s.Marks env m) (found : s.call w = some handling) :
    m.calls w = handling.markCall env := by
  rw [marks.calls, found, Option.bind_some]

/-- An entry that is taken up begins a call, unless its payload is malformed. -/
theorem Marks.take (marks : s.Marks env m) (idle : s.call w = none)
    (keys : t.store.marks = s.store.marks) (now : t.store.now = s.store.now)
    (called : ∀ v, t.call v = if v = w then some (.mark payload) else s.call v) : t.Followed env m := by
  cases decoded : env.fromJson payload with
  | none =>
    refine (marks.congr keys now fun v => ?_).followed
    rw [called]
    split
    · rename_i same
      simp [same, idle, Handling.markCall, decoded]
    · rfl
  | some event =>
    have entered : t.Marks env (m.enter w m.store (some (.setNx (idemKey event)))) := by
      refine marks.enter (marks.marks.trans keys.symm) (marks.now.trans now.symm) ?_ fun v other => ?_
      · simp [called, Handling.markCall, decoded]
      · rw [called, if_neg other]
    refine entered.one (c := .call w (idemKey event)) ?_ id
    simp [Marking.step, marks.calls, idle]

theorem Marks.statement (marks : s.Marks env m) (found : s.call w = some handling)
    (executed : Executes env s.store handling u answer) :
    ((s.withStore u).proceed w entry (continuation answer)).Followed env m := by
  have others : ∀ v ≠ w, ((s.withStore u).proceed w entry (continuation answer)).call v = s.call v :=
    fun v other => (call_proceed _ w entry _ v).trans (if_neg other)
  have stored := proceed_store (s.withStore u) w entry (continuation answer)
  cases inside : handling.markCall env with
  | none =>
    obtain ⟨keys, now, after⟩ := executed.aside inside
    refine (marks.congr ?_ ?_ fun v => ?_).followed
    · rw [stored]
      exact keys
    · rw [stored]
      exact now
    · rw [call_proceed]
      split
      · rename_i same
        rw [after, same, found, Option.bind_some, inside]
      · rfl
  | some c =>
    obtain ⟨u', performed, keys, now⟩ := executed.command inside marks.marks marks.now
    have awaits : m.calls w = some c := (marks.call found).trans inside
    have entered : ((s.withStore u).proceed w entry (continuation answer)).Marks env
        (m.enter w u' ((continuation answer).bind (Handling.markCall env))) := by
      refine marks.enter ?_ ?_ ?_ others
      · rw [stored]
        exact keys
      · rw [stored]
        exact now
      · rw [call_proceed, if_pos rfl]
    refine entered.one (c := .command w) ?_ id
    simp only [Marking.step, awaits, Option.map_some, performed]

/-- A call that fails where it is not stranded fails in the other system. -/
theorem Marks.failed (marks : s.Marks env m) (found : s.call w = some handling)
    (outcome : u = s.store ∧ applied = false ∨
      applied = true ∧ ∃ answer, Executes env s.store handling u answer)
    (kept : ¬ s.Strands env (.failure w applied)) : ((s.withStore u).finish w entry).Followed env m := by
  have ended (v : Nat) := call_setProcessor (s.withStore u) w
    { (s.workers w).processor with lastId := entry, current := none } v
  cases inside : handling.markCall env with
  | none =>
    have same : u.marks = s.store.marks ∧ u.now = s.store.now := by
      rcases outcome with ⟨rfl, -⟩ | ⟨-, answer, executed⟩
      · exact ⟨rfl, rfl⟩
      · obtain ⟨keys, now, -⟩ := executed.aside inside
        exact ⟨keys, now⟩
    refine (marks.congr same.1 same.2 fun v => (congrArg (Option.bind · _) (ended v)).trans ?_).followed
    split
    · rename_i same
      rw [same, found, Option.bind_some, inside]
      rfl
    · rfl
  | some c =>
    have awaits : m.calls w = some c := (marks.call found).trans inside
    have others : ∀ v ≠ w, ((s.withStore u).finish w entry).call v = s.call v :=
      fun v other => (ended v).trans (if_neg other)
    have gone : none = (((s.withStore u).finish w entry).call w).bind (Handling.markCall env) :=
      (congrArg (Option.bind · _) ((ended w).trans (if_pos rfl))).symm
    have kept : ¬ m.Strands (.failure w applied) := by
      intro strands
      cases c with
      | setNx key =>
        simp only [Marking.Strands, awaits] at strands
        obtain ⟨payload, event, rfl, decoded, rfl⟩ := markCall_setNx inside
        refine kept (Or.inr ⟨strands.1, payload, event, found, decoded, ?_⟩)
        rw [Store.marked, ← marks.marks, ← marks.now]
        exact strands.2
      | expire key =>
        obtain ⟨payload, event, rfl⟩ := markCall_expire inside
        exact kept (Or.inl ⟨payload, event, found⟩)
    have left (v : Store) (keys : v.marks = u.marks) (now : v.now = u.now) :
        ((s.withStore u).finish w entry).Marks env (m.enter w v none) := marks.enter keys now gone others
    rcases outcome with ⟨rfl, rfl⟩ | ⟨rfl, answer, executed⟩
    · refine (left m.store marks.marks marks.now).one ?_ kept
      simp [Marking.step, awaits]
    · obtain ⟨u', performed, keys, now⟩ := executed.command inside marks.marks marks.now
      refine (left u' keys now).one ?_ kept
      simp [Marking.step, awaits, performed]

theorem Marks.crash (marks : s.Marks env m) (kept : ¬ s.Strands env (.crash w)) :
    (s.setWorker w .booted).Followed env m := by
  have entered : (s.setWorker w .booted).Marks env (m.enter w m.store none) := by
    refine marks.enter marks.marks marks.now ?_ fun v other => ?_
    · simp [Services.call, setWorker, Worker.booted]
    · simp [Services.call, setWorker, Function.update_of_ne other]
  refine entered.one (c := .crash w) rfl ?_
  rintro ⟨key, between⟩
  rw [marks.calls] at between
  obtain ⟨handling, found, inside⟩ := Option.bind_eq_some_iff.mp between
  obtain ⟨payload, event, rfl⟩ := markCall_expire inside
  exact kept ⟨payload, event, found⟩

/-- What a step does to the key space is at most one step of the calls of `mark_if_absent`. -/
theorem Marks.step (marks : s.Marks env m) (h : Moves env s a t) (kept : ¬ s.Strands env a) :
    t.Followed env m := by
  cases h with
  | elapse n =>
    have later : (s.withStore { s.store with now := s.store.now + n }).Marks env
        { m with store := { m.store with now := m.store.now + n } } :=
      ⟨marks.marks, congrArg (· + n) marks.now, marks.calls⟩
    exact later.one (c := .elapse n) rfl id
  | request a u api effect =>
    have same : u.marks = s.store.marks ∧ u.now = s.store.now := by
      cases effect <;> exact ⟨rfl, rfl⟩
    exact Marks.followed (marks.congr same.1 same.2 fun _ => rfl)
  | webhook => exact Marks.followed (marks.congr rfl rfl fun _ => rfl)
  | read w lastId processor =>
    refine Marks.followed (marks.congr rfl rfl fun v => ?_)
    rw [call_setProcessor]
    split
    · rename_i same
      simp [Services.call, same, processor]
    · rfl
  | take w lastId entry payload rest processor =>
    let taken : Processor := ⟨lastId, rest, some (entry, .mark payload)⟩
    have idle : s.call w = none := by simp [Services.call, processor]
    have called (v : Nat) : ((s.setProcessor w taken).noteSeen env payload).call v =
        if v = w then some (.mark payload) else s.call v := by
      simp only [Services.call, noteSeen_workers]
      exact call_setProcessor s w taken v
    exact marks.take idle (by simp) (by simp) called
  | statement w entry handling u answer current executed =>
    exact marks.statement (call_of_current current) executed
  | failed w applied entry handling u current outcome =>
    exact marks.failed (call_of_current current) outcome kept
  | crash w => exact marks.crash kept
  | sweep w =>
    refine Marks.followed (marks.congr rfl rfl fun v => ?_)
    rw [call_setReconciler]
  | reconcile w reconciling u next current settled =>
    have same : u.marks = s.store.marks ∧ u.now = s.store.now := by
      cases settled <;> exact ⟨rfl, rfl⟩
    exact Marks.followed (marks.congr same.1 same.2 fun v =>
      congrArg (Option.bind · _) (call_setReconciler _ w _ v))
  | abandoned w applied reconciling u current outcome =>
    have same : u.marks = s.store.marks ∧ u.now = s.store.now := by
      rcases outcome with rfl | ⟨-, next, settled⟩
      · exact ⟨rfl, rfl⟩
      · cases settled <;> exact ⟨rfl, rfl⟩
    exact Marks.followed (marks.congr same.1 same.2 fun v =>
      congrArg (Option.bind · _) (call_setReconciler _ w _ v))

/-- A run of the system is, on the key space, a run of calls of `mark_if_absent`. -/
theorem run_marking (h : run (Services.step env gateways) s schedule = some t) (marks : s.Marks env m)
    (kept : Meets (Services.step env gateways) (fun s a => ¬ s.Strands env a) s schedule) :
    t.Followed env m := by
  induction schedule generalizing s m with
  | nil =>
    cases h
    exact marks.followed
  | cons a rest ih =>
    obtain ⟨u, stepped, h⟩ := run_cons_iff.mp h
    obtain ⟨first, n, reached, marks', met⟩ := marks.step (step_moves env gateways stepped) kept.1
    obtain ⟨later, n', reached', marks'', met'⟩ := ih h marks' (kept.2 u stepped)
    exact ⟨first ++ later, n', run_append_iff.mpr ⟨n, reached, reached'⟩, marks'', met.append reached met'⟩

theorem initial_marks : Services.initial.Marks env Marking.initial := ⟨rfl, rfl, fun _ => rfl⟩

/-- Where no worker strands a call, every idempotency mark has an expiry once no call is between
its commands. -/
theorem run_marks_expire (h : run (Services.step env gateways) .initial schedule = some s)
    (kept : Meets (Services.step env gateways) (fun s a => ¬ s.Strands env a) .initial schedule)
    (quiet : ∀ w payload event, s.call w ≠ some (.expire payload event)) (key : String) :
    s.store.marks key ≠ some .never := by
  obtain ⟨commands, m, reached, marks, met⟩ := run_marking h initial_marks kept
  have expire := (Marking.marksExpire_of_kept reached met).1 commands [] m (List.append_nil _).symm reached
  rw [← marks.marks]
  apply expire
  intro w key between
  rw [marks.calls] at between
  obtain ⟨handling, found, inside⟩ := Option.bind_eq_some_iff.mp between
  obtain ⟨payload, event, rfl⟩ := markCall_expire inside
  exact quiet w payload event found

end Services
end PaymentBackend
