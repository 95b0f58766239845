import UsbHost.Bits.FlagSet
import UsbHost.Wire.Descriptor

/-!
# Input reports of a gamepad

A pad of the Xbox 360 kind sends a 20-byte report whenever something changes:
two bytes of buttons, two triggers and two sticks of two axes each.  Messages
of other kinds arrive on the same endpoint and are told apart by their first
byte.

## Main results

* `ofReport?_eq_some_iff` — which messages are input reports, and what they
  decode to.
* `Update.of_pressed_bits`, `Update.of_released_bits` — what counts as pressed
  and as released between two states.
-/

namespace UsbHost

/-! ## Buttons -/

/-- The buttons that are down, the first report byte in the low bits.  Bit 11
belongs to no button. -/
abbrev Buttons := FlagSet (0xF7FF : Half)

/-- The bit and the name of every button, from bit 0 up. -/
def Buttons.table : List (Nat × String) :=
  [(0, "DPAD_UP"), (1, "DPAD_DOWN"), (2, "DPAD_LEFT"), (3, "DPAD_RIGHT"),
    (4, "START"), (5, "BACK"), (6, "LEFT_STICK"), (7, "RIGHT_STICK"),
    (8, "LB"), (9, "RB"), (10, "GUIDE"), (12, "A"), (13, "B"), (14, "X"),
    (15, "Y")]

/-- The names of the buttons that are down. -/
def Buttons.names (b : Buttons) : List String :=
  (table.filter fun (bit, _) => b.bits.getLsbD bit).map (·.2)

/-! ## States -/

/-- The position of a stick. -/
structure Stick where
  x : Int16 := 0
  y : Int16 := 0
deriving DecidableEq

/-- What an input report tells. -/
structure PadState where
  buttons : Buttons := FlagSet.empty
  leftTrigger : Byte := 0
  rightTrigger : Byte := 0
  leftStick : Stick := {}
  rightStick : Stick := {}
deriving DecidableEq

/-- The length of an input report. -/
def reportLength : Nat := 20

/-- The state that the bytes of an input report stand for. -/
def PadState.view (b : List Byte) : PadState :=
  { buttons := FlagSet.truncate (halfAt b 2)
    leftTrigger := byteAt b 4
    rightTrigger := byteAt b 5
    leftStick := { x := ⟨⟨halfAt b 6⟩⟩, y := ⟨⟨halfAt b 8⟩⟩ }
    rightStick := { x := ⟨⟨halfAt b 10⟩⟩, y := ⟨⟨halfAt b 12⟩⟩ } }

/-- Decodes an input report; anything else yields nothing. -/
def PadState.ofReport? (b : List Byte) : Option PadState :=
  if reportLength ≤ b.length ∧ byteAt b 0 = 0 ∧
      reportLength ≤ (byteAt b 1).toNat then
    some (view b)
  else none

theorem PadState.ofReport?_eq_some_iff {b : List Byte} {s : PadState} :
    ofReport? b = some s ↔
      (20 ≤ b.length ∧ byteAt b 0 = 0 ∧ 20 ≤ (byteAt b 1).toNat) ∧
        s = view b := by
  unfold ofReport? reportLength
  split
  next h => simp [h, eq_comm]
  next h =>
    simp only [reduceCtorEq, false_iff]
    exact fun hs => h hs.1

/-! ## Updates -/

/-- A new state and the buttons that changed on the way to it. -/
structure Update where
  state : PadState
  pressed : Buttons
  released : Buttons
deriving DecidableEq

/-- The update from one state to the next. -/
def Update.of (previous next : PadState) : Update where
  state := next
  pressed := next.buttons.diff previous.buttons
  released := previous.buttons.diff next.buttons

theorem Update.of_pressed_bits (p q : PadState) :
    (Update.of p q).pressed.bits = q.buttons.bits &&& ~~~p.buttons.bits :=
  FlagSet.bits_diff _ _

theorem Update.of_released_bits (p q : PadState) :
    (Update.of p q).released.bits = p.buttons.bits &&& ~~~q.buttons.bits :=
  FlagSet.bits_diff _ _

end UsbHost
