import UsbHost.Bench.Environment
import UsbHost.Bench.Firmware
import UsbHost.Bench.Trace
import UsbHost.Driver.Operation

/-!
# Bench sessions

A session puts one driver through a sequence of steps: the environment is
rearranged, registers are accessed one by one, operations are performed.  Every
step is reported with what it answered and what it did on the bus.
-/

namespace UsbHost.Bench

open Simulation

/-- What the driver of a bench runs on. -/
abbrev BenchState := Environment × TickingClock

/-- How the USB block of a bench gets its power. -/
inductive PowerSupply where
  | always
  | refused (error : UsbError)
  | firmware (script : FirmwareScript)

/-- The power switch of a supply. -/
def PowerSupply.switch : PowerSupply → PowerSwitch BenchState
  | always => PowerSwitch.alwaysOn
  | refused e => fun _ w => .ok (.error e) w
  | firmware script => switchOnUsb script.mailbox

/-- One step of a session. -/
inductive Step where
  /-- Changes the environment behind the driver's back. -/
  | arrange (change : Environment → Environment)
  /-- Shows the environment. -/
  | inspect
  /-- One access to the core; a reading is answered with its number. -/
  | access (action : Core BenchState → Run Register BenchState (Option Nat))
  | renewState
  | renewPad
  | settings
  /-- Takes a reading of the clock. -/
  | now
  | operate (operation : Operation BenchState)

/-- What a step answers. -/
inductive StepResult where
  | nothing
  | environment (e : Environment)
  | number (n : Nat)
  | settings (s : Settings)
  | time (t : Duration)
  | reply (r : Reply)
  | halted (h : Halt)

/-- The report on a step. -/
structure Report where
  result : StepResult
  driver : Driver
  /-- What the clock stands at. -/
  now : Duration
  trace : List String
  transactions : List Transaction

/-- A driver and the bench it runs on. -/
structure Session where
  settings : Settings := {}
  spin : Bool := false
  bench : BenchState := ({}, {})
  driver : Driver := {}

namespace Session

/-- The driver's host. -/
def host (s : Session) : Host BenchState :=
  { core := machine s.spin, settings := s.settings }

/-- What a step does, with the answer and the driver's state after it. -/
def action (s : Session) : Step → Run Register BenchState (StepResult × Driver)
  | .arrange change => fun _ w =>
    .ok (.nothing, s.driver) { w with env := (change w.env.1, w.env.2) }
  | .inspect => fun _ w => .ok (.environment w.env.1, s.driver) w
  | .access a => do
    match ← a s.host.core with
    | some n => return (.number n, s.driver)
    | none => return (.nothing, s.driver)
  | .renewState => return (.nothing, { s.driver with state := {} })
  | .renewPad => return (.nothing, { s.driver with pad := {} })
  | .settings => return (.settings s.settings, s.driver)
  | .now => return (.time (← s.host.core.now), s.driver)
  | .operate operation => do
    let (reply, driver) ← operation.perform s.host s.driver
    return (.reply reply, driver)

/-- Runs a step; the log and the transactions it is reported with are its own.
The driver keeps its state when a step halts. -/
def run (s : Session) (patience : Nat) (step : Step) : Report × Session :=
  let fresh := s.bench.1.mapController ({ · with transactions := [] })
  let (result, driver, world) :=
    match s.action step patience ⟨(fresh, s.bench.2), []⟩ with
    | .ok (result, driver) world => (result, driver, world)
    | .error halt world => (.halted halt, s.driver, world)
  ({ result
     driver
     now := world.env.2.now
     trace := traceLines world.log
     transactions := world.env.1.transactions },
    { s with bench := world.env, driver })

/-- Runs steps in order, up to the first one that halts. -/
def runAll (patience : Nat) : Session → List Step → List Report
  | _, [] => []
  | s, step :: rest =>
    let (report, s) := s.run patience step
    match report.result with
    | .halted _ => [report]
    | _ => report :: runAll patience s rest

end Session

end UsbHost.Bench
