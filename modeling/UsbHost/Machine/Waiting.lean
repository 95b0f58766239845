import UsbHost.Machine.Basic
import UsbHost.Time.Deadline

/-!
# Waiting

Delays, deadlines read from a machine's clock, and the wait for a condition
that gives up at a deadline.

## Main results

* `Machine.expired_none` — a deadline that never comes is not worth a reading.
* `Machine.delay_of_skip` — a clock that can skip ahead is not read by a delay.
-/

namespace UsbHost

variable {ρ σ : Type}

namespace Machine

variable (m : Machine ρ σ)

/-! ## Delays -/

/-- Takes readings until one is at least `d` later than the first. -/
def busyWait (d : Duration) : Run ρ σ Unit := do
  let finish := (← m.now).addCapped d
  Run.loop (fun _ => do
    let t ← m.now
    pure (if t < finish then .inl () else .inr ())) ()

/-- Lets at least `d` pass. -/
def delay (d : Duration) : Run ρ σ Unit :=
  match m.clock.skip with
  | some skip => fun _ w => .ok () ⟨skip d w.env, .pause d :: w.log⟩
  | none => m.busyWait d

theorem delay_of_skip {skip : Duration → σ → σ} (h : m.clock.skip = some skip)
    (d : Duration) (p : Nat) (w : World ρ σ) :
    m.delay d p w = .ok () ⟨skip d w.env, .pause d :: w.log⟩ := by
  simp [delay, h]

/-! ## Deadlines -/

/-- The deadline `timeout` from now. -/
def deadlineAfter (timeout : Duration) : Run ρ σ Deadline := do
  return .ofStart (← m.now) timeout

/-- Whether the deadline has been reached; the clock is read only if it can
be. -/
def expired (d : Deadline) : Run ρ σ Bool :=
  if d.expiresAt.isSome then return d.reached (← m.now) else pure false

/-- The time left until the deadline; the clock is read only if it comes at
all. -/
def timeLeft (d : Deadline) : Run ρ σ Duration :=
  if d.expiresAt.isSome then return d.remaining (← m.now) else pure .longest

theorem expired_none : m.expired ⟨none⟩ = pure false := rfl

theorem timeLeft_none : m.timeLeft ⟨none⟩ = pure .longest := rfl

/-! ## Conditions -/

/-- Checks `condition` until it holds or `timeout` has passed, and once more
after that.  Returns whether the last check held. -/
def waitUntil (timeout : Duration) (condition : Run ρ σ Bool) :
    Run ρ σ Bool := do
  let deadline ← m.deadlineAfter timeout
  Run.loop (fun _ => do
    if ← condition then
      return .inr true
    if ← m.expired deadline then
      return .inr (← condition)
    return .inl ()) ()

end Machine

end UsbHost
