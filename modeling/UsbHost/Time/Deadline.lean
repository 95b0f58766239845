import UsbHost.Time.Duration

/-!
# Deadlines

A deadline is the point in time at which a bounded wait gives up.  It is fixed
from the reading taken when the wait begins; if that point is later than any
clock can show, the deadline never comes.

## Main results

* `reached_ofStart_iff` — when a deadline made from a start and a timeout has
  been reached.
* `remaining_eq_zero_iff` — nothing is left exactly once it is reached.
* `reached_of_le`, `remaining_le_of_le` — what a later reading makes of it.
-/

namespace UsbHost

/-- The point in time at which a wait gives up, or `none` for never. -/
structure Deadline where
  expiresAt : Option Duration
deriving DecidableEq

namespace Deadline

/-- The deadline `timeout` after `start`. -/
def ofStart (start timeout : Duration) : Deadline :=
  ⟨start.add? timeout⟩

/-- Whether a clock that shows `t` is at or past the deadline. -/
def reached (d : Deadline) (t : Duration) : Bool :=
  match d.expiresAt with
  | none => false
  | some e => decide (e ≤ t)

/-- The time from `t` to the deadline. -/
def remaining (d : Deadline) (t : Duration) : Duration :=
  match d.expiresAt with
  | none => .longest
  | some e => e.sub t

theorem reached_ofStart_iff {start timeout t : Duration} :
    (ofStart start timeout).reached t = true ↔
      start.nanos + timeout.nanos ≤ t.nanos := by
  have ht := t.inRange
  unfold reached ofStart
  split
  next h =>
    have := Duration.add?_eq_none_iff.1 h
    simp only [Duration.longest] at this
    simp only [Bool.false_eq_true, false_iff]
    omega
  next e h =>
    have := Duration.add?_eq_some_iff.1 h
    simp only [decide_eq_true_eq, Duration.le_def]
    omega

theorem remaining_eq_zero_iff {start timeout t : Duration} :
    (ofStart start timeout).remaining t = .zero ↔
      (ofStart start timeout).reached t = true := by
  unfold reached remaining
  split
  · simp only [Bool.false_eq_true, iff_false]
    decide
  next e h =>
    rw [decide_eq_true_eq, Duration.le_def, Duration.ext_iff,
      Duration.nanos_sub]
    simp only [Duration.zero, Duration.ofNanos]
    omega

/-- If no clock can show the deadline, the time left is without end. -/
theorem remaining_of_never {start timeout t : Duration}
    (h : Duration.longest.nanos < start.nanos + timeout.nanos) :
    (ofStart start timeout).remaining t = .longest := by
  rw [remaining, ofStart, Duration.add?_eq_none_iff.2 h]

variable (d : Deadline) {t t' : Duration}

/-- A deadline that has been reached stays reached. -/
theorem reached_of_le (h : t ≤ t') (hreached : d.reached t = true) :
    d.reached t' = true := by
  unfold reached at *
  cases hd : d.expiresAt with
  | none =>
    rw [hd] at hreached
    exact nomatch hreached
  | some e =>
    rw [hd] at hreached
    exact decide_eq_true (Nat.le_trans (of_decide_eq_true hreached) h)

/-- The time left does not grow. -/
theorem remaining_le_of_le (h : t ≤ t') : d.remaining t' ≤ d.remaining t := by
  unfold remaining
  cases d.expiresAt with
  | none => exact Nat.le_refl _
  | some e =>
    rw [Duration.le_def, Duration.nanos_sub, Duration.nanos_sub]
    exact Nat.sub_le_sub_left h e.nanos

end Deadline

end UsbHost
