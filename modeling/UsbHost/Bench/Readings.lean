import UsbHost.Board.SystemTimer
import UsbHost.Machine.Waiting

/-!
# Clocks with given readings

A clock that shows given readings one after another and repeats the last one
for ever, and a timer whose counter stands still; what deadlines, delays and
the timer make of them.
-/

namespace UsbHost.Bench

/-- The readings still to come, and how many have been taken. -/
structure Readings where
  next : Duration := .zero
  later : List Duration := []
  taken : Nat := 0

/-- A machine without registers whose clock shows the readings. -/
def Readings.machine : Machine Empty Readings where
  bus := { read := fun r _ => r.elim, write := fun r _ => r.elim }
  clock :=
    { now := fun c =>
        match c.later with
        | [] => (c.next, { c with taken := c.taken + 1 })
        | t :: rest => (c.next, ⟨t, rest, c.taken + 1⟩) }

/-- The clock with the given readings. -/
def Readings.ofList : List Duration → Readings
  | [] => {}
  | t :: rest => { next := t, later := rest }

/-- A question about a deadline. -/
inductive DeadlineQuery where
  | expired
  | remaining

/-- The answer to such a question. -/
inductive DeadlineAnswer where
  | expired (value : Bool)
  | remaining (value : Duration)

/-- Answers questions about a deadline in turn. -/
def askDeadline (timeout : Duration) (queries : List DeadlineQuery) :
    Run Empty Readings (List DeadlineAnswer) := do
  let deadline ← Readings.machine.deadlineAfter timeout
  queries.mapM fun
    | .expired => return .expired (← Readings.machine.expired deadline)
    | .remaining => return .remaining (← Readings.machine.timeLeft deadline)

/-- A timer whose counter stands still. -/
def stoppedTimer (high low : Word) : Machine TimerRegister Unit where
  bus :=
    { read := fun r s =>
        match r with
        | .high => (high, s)
        | .low => (low, s)
      write := fun _ _ s => s }
  clock := { now := fun s => (.zero, s) }

end UsbHost.Bench
