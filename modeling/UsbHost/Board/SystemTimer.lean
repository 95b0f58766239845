import UsbHost.Machine.Basic

/-!
# The system timer

A free-running counter of microseconds, 64 bits wide and read in two halves.
The high half can tick between two reads, so it is read again until it stayed
the same.
-/

namespace UsbHost

/-- The two halves of the counter. -/
inductive TimerRegister where
  | low
  | high
deriving DecidableEq

/-- The distance of a half from the timer's base address. -/
def TimerRegister.offset : TimerRegister → Nat
  | low => 0x04
  | high => 0x08

/-- The span that a counter stands for. -/
def counterTime (high low : Word) : Duration := .ofMicros (high ++ low).toNat

/-- Takes a reading of the timer. -/
def Machine.readTimer {σ : Type} (m : Machine TimerRegister σ) :
    Run TimerRegister σ Duration :=
  Run.loop (fun _ => do
    let high ← m.read .high
    let low ← m.read .low
    if (← m.read .high) = high then
      return .inr (counterTime high low)
    return .inl ()) ()

end UsbHost
