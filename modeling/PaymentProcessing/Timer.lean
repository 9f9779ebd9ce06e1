import Mathlib.Data.Nat.Basic

/-! Periodic timers. Instants and durations are natural numbers in one unit. A tick that is
taken within the tolerance counts as on time; a later one is missed and delays the next. -/

structure Timer where
  period : Nat
  tolerance : Nat
  /-- When the next tick is due. -/
  deadline : Nat
  deriving DecidableEq, Repr

namespace Timer

/-- A timer whose first tick is due at once. -/
def start (period tolerance now : Nat) : Timer := ⟨period, tolerance, now⟩

/-- Take the next tick, if it is due. -/
def tick (i : Timer) (now : Nat) : Option Timer :=
  if now < i.deadline then none
  else some { i with deadline := (if now ≤ i.deadline + i.tolerance then i.deadline else now) + i.period }

theorem tick_due (h : tick i now = some j) : i.deadline ≤ now := by
  unfold tick at h
  split at h
  · contradiction
  · omega

theorem tick_of_due (due : i.deadline ≤ now) : ∃ j, tick i now = some j := by
  simp only [tick, if_neg (Nat.not_lt.mpr due)]
  exact ⟨_, rfl⟩

theorem tick_period (h : tick i now = some j) : j.period = i.period := by
  unfold tick at h
  split at h
  · contradiction
  · cases h
    rfl

/-- The next tick is due a period after this one at the latest. -/
theorem tick_deadline_le (h : tick i now = some j) : j.deadline ≤ now + i.period := by
  have due := tick_due h
  unfold tick at h
  split at h
  · contradiction
  · cases h
    change (if now ≤ i.deadline + i.tolerance then i.deadline else now) + i.period ≤ now + i.period
    split <;> omega

/-- A tick that is taken when it is due is followed by the next one a period later. -/
theorem tick_deadline (i : Timer) :
    tick i i.deadline = some { i with deadline := i.deadline + i.period } := by
  simp [tick]

end Timer
