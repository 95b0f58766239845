import UsbHost.Gamepad.Report
import UsbHost.Host.Polling

/-!
# Polling a gamepad

A gamepad remembers the state of its last report.  A poll that finds nothing
new, or a message that is not an input report, leaves it as it is.
-/

namespace UsbHost

/-- A gamepad as it was last seen. -/
structure Gamepad where
  state : PadState := {}
deriving DecidableEq

namespace Gamepad

/-- Takes in a message of the pad. -/
def receive (pad : Gamepad) (message : List Byte) : Option Update × Gamepad :=
  match PadState.ofReport? message with
  | none => (none, pad)
  | some state => (some (.of pad.state state), ⟨state⟩)

/-- Messages taken in one after another; returns the updates they bring. -/
def receiveAll (pad : Gamepad) : List (List Byte) → List Update × Gamepad
  | [] => ([], pad)
  | message :: rest =>
    let (update, pad) := pad.receive message
    let (updates, pad) := receiveAll pad rest
    (update.toList ++ updates, pad)

theorem receiveAll_append (pad : Gamepad)
    (messages messages' : List (List Byte)) :
    pad.receiveAll (messages ++ messages') =
      ((pad.receiveAll messages).1 ++
          ((pad.receiveAll messages).2.receiveAll messages').1,
        ((pad.receiveAll messages).2.receiveAll messages').2) := by
  induction messages generalizing pad with
  | nil => rfl
  | cons message rest ih =>
    simp only [List.cons_append, receiveAll, ih, List.append_assoc]

/-- Polls the pad once.  That the pad is not ready or does not answer in time
counts as nothing new. -/
def poll {σ : Type} (pad : Gamepad) (host : Host σ) :
    StateT Link (Run Register σ)
      (Except UsbError (Option Update) × Gamepad) := do
  let moved ← host.readReport (List.replicate reportLength 0)
  match moved.result with
  | .ok count =>
    let message ←
      (Run.slice moved.buffer 0 count : Run Register σ (List Byte))
    let (update, pad) := pad.receive message
    return (.ok update, pad)
  | .error e =>
    if e.exchangeError? = some .nak ∨ e.exchangeError? = some .timeout then
      return (.ok none, pad)
    else
      return (.error e, pad)

end Gamepad

end UsbHost
