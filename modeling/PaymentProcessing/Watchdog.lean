import PaymentProcessing.Timer

/-! Watchdogs: at each tick of a periodic timer, the time since the last sign of life is compared
with a timeout. -/

structure Watchdog where
  timer : Timer
  /-- The last sign of life. -/
  last : Nat
  deriving DecidableEq, Repr

namespace Watchdog
variable {w : Watchdog}

/-- The next check is due within a period of the end of the timeout. -/
def Alert (timeout : Nat) (w : Watchdog) : Prop := w.timer.deadline ≤ w.last + timeout + w.timer.period

theorem start_alert (timeout period tolerance now : Nat) :
    Alert timeout ⟨.start period tolerance now, now⟩ := by
  change now ≤ now + timeout + period
  omega

theorem Alert.sign (alert : w.Alert timeout) (later : w.last ≤ now) :
    Alert timeout { w with last := now } := by
  unfold Alert at alert
  change w.timer.deadline ≤ now + timeout + w.timer.period
  omega

/-- A check that passes is followed by one within a period. -/
theorem alert_of_check (ticked : w.timer.tick now = some next) (passes : now - w.last ≤ timeout) :
    Alert timeout { w with timer := next } := by
  have due := Timer.tick_deadline_le ticked
  change next.deadline ≤ w.last + timeout + next.period
  rw [Timer.tick_period ticked]
  omega

/-- Where the next check is not taken too late, nothing happens long after the last sign of life. -/
theorem Alert.noticed (alert : w.Alert timeout) (prompt : now ≤ w.timer.deadline + lateness) :
    now ≤ w.last + (timeout + w.timer.period + lateness) := by
  unfold Alert at alert
  omega

end Watchdog
