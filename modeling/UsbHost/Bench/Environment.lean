import UsbHost.Machine.Basic
import UsbHost.Simulation.Controller

/-!
# The environment of a test bench

A driver under test runs on a simulated core, or on bare memory, with a clock
that moves by a fixed tick at every reading.  What single registers read as can
be scripted.
-/

namespace UsbHost.Bench

open Simulation

/-! ## Tables by offset -/

/-- Values at some offsets. -/
abbrev OffsetTable (α : Type) := List (Nat × α)

/-- Removes the value at an offset. -/
def OffsetTable.erase {α : Type} (t : OffsetTable α) (offset : Nat) :
    OffsetTable α :=
  t.filter fun entry => entry.1 ≠ offset

/-- Sets the value at an offset. -/
def OffsetTable.insert {α : Type} (t : OffsetTable α) (offset : Nat) (a : α) :
    OffsetTable α :=
  (offset, a) :: t.erase offset

/-! ## Scripted readings -/

/-- What readings at some offsets are replaced by. -/
structure Overrides where
  /-- Used up one by one, first of all. -/
  queues : OffsetTable (List Word) := []
  /-- Used whenever nothing is queued. -/
  sticky : OffsetTable Word := []

namespace Overrides

/-- The replacement for a reading, if there is one, and what remains. -/
def take? (o : Overrides) (offset : Nat) : Option (Word × Overrides) :=
  match o.queues.lookup offset with
  | some (v :: rest) =>
    some (v, { o with queues := OffsetTable.insert o.queues offset rest })
  | _ => (o.sticky.lookup offset).map fun v => (v, o)

end Overrides

/-! ## What is being driven -/

/-- The registers behind the bus. -/
inductive Target where
  | simulated (controller : Controller)
  | memory (words : OffsetTable Word)

namespace Target

/-- Reads a register. -/
def read (r : Register) : Target → Word × Target
  | simulated k => let (v, k) := k.read r; (v, simulated k)
  | memory m => ((m.lookup r.offset).getD 0, memory m)

/-- Writes a register. -/
def write (r : Register) (v : Word) : Target → Target
  | simulated k => simulated (k.write r v)
  | memory m => memory (OffsetTable.insert m r.offset v)

/-- The words that are not zero, with their offsets. -/
def nonzeroWords : Target → List (Nat × Word)
  | simulated _ => []
  | memory m => m.filter fun (_, v) => v ≠ 0

end Target

/-- The registers and the script of a bench. -/
structure Environment where
  target : Target := .simulated {}
  overrides : Overrides := {}

namespace Environment

/-! ## Arranging -/

/-- Appends readings to the script of an offset. -/
def queueReadings (e : Environment) (offset : Nat) (vs : List Word) :
    Environment :=
  let queues := e.overrides.queues
  let queue := (queues.lookup offset).getD [] ++ vs
  { e with overrides.queues := OffsetTable.insert queues offset queue }

/-- Fixes what an offset reads as, or sets it free again. -/
def fixReading (e : Environment) (offset : Nat) (v : Option Word) :
    Environment :=
  { e with
    overrides.sticky :=
      match v with
      | some v => OffsetTable.insert e.overrides.sticky offset v
      | none => OffsetTable.erase e.overrides.sticky offset }

/-- Stores a word behind the driver's back: in memory, or in a register of the
simulated core that is plain storage. -/
def preset (e : Environment) (offset : Nat) (v : Word) : Environment :=
  match e.target with
  | .memory m => { e with target := .memory (OffsetTable.insert m offset v) }
  | .simulated k =>
    match Register.ofOffset? offset with
    | some r => { e with target := .simulated (k.store r v) }
    | none => e

/-- Changes the simulated core, if there is one. -/
def mapController (e : Environment) (f : Controller → Controller) :
    Environment :=
  match e.target with
  | .simulated k => { e with target := .simulated (f k) }
  | .memory _ => e

/-- The transactions of the simulated core, if there is one, in order of
time. -/
def transactions (e : Environment) : List Transaction :=
  match e.target with
  | .simulated k => k.transactions.reverse
  | .memory _ => []

/-! ## The bus -/

/-- Scripted readings come first; writes always go through. -/
def bus : Bus Register Environment where
  read r e :=
    match e.overrides.take? r.offset with
    | some (v, overrides) => (v, { e with overrides })
    | none => let (v, target) := e.target.read r; (v, { e with target })
  write r v e := { e with target := e.target.write r v }

end Environment

/-! ## The clock -/

/-- A clock that moves by a tick before every reading. -/
structure TickingClock where
  now : Duration := .zero
  tick : Duration := .ofMicros 1

/-- Delays either pass at once or, if `spin`, are waited for by reading. -/
def TickingClock.clock (spin : Bool) : Clock TickingClock where
  now c :=
    let now := c.now.addCapped c.tick
    (now, { c with now })
  skip :=
    if spin then none
    else some fun d c => { c with now := c.now.addCapped d }

/-- The machine of a bench. -/
def machine (spin : Bool) : Core (Environment × TickingClock) :=
  .ofParts Environment.bus (TickingClock.clock spin)

end UsbHost.Bench
