import UsbHost.Gamepad.Pad
import UsbHost.Host.Enumeration

/-!
# Operations of the driver

Everything a caller can ask of the driver, as data, and the state it keeps
between two requests.  What holds after any sequence of operations is a
statement about lists of them.
-/

namespace UsbHost

/-- What a caller keeps for the driver. -/
structure Driver where
  state : Link := {}
  pad : Gamepad := {}
deriving DecidableEq

/-- A request to the driver. -/
inductive Operation (σ : Type) where
  | version
  | init (power : PowerSwitch σ)
  | isConnected
  | awaitDevice (timeout : Duration)
  | resetBus
  | enumerate
  | setIdle
  | setInterface (interface setting : Byte)
  | start (power : PowerSwitch σ) (timeout : Duration)
  | control (setup : SetupPacket) (buffer : List Byte)
  | transfer (x : Exchange) (buffer : List Byte) (length : Nat)
  | readReport (report : List Byte)
  | poll

/-- What an operation answers. -/
inductive Reply where
  | word (value : Word)
  | flag (value : Bool)
  | finished (result : Except UsbError Unit)
  | transferred (moved : Moved TransferError)
  | moved (moved : Moved UsbError)
  | polled (result : Except UsbError (Option Update))

namespace Operation

variable {σ : Type}

/-- Runs an operation on the device that the driver knows. -/
def onDevice (driver : Driver) (operation : HostM σ Unit) :
    Run Register σ (Reply × Driver) := do
  let (result, state) ← operation.run.run driver.state
  return (.finished result, { driver with state })

/-- Performs a request; returns the answer and what is to be kept. -/
def perform (host : Host σ) (driver : Driver) :
    Operation σ → Run Register σ (Reply × Driver)
  | version => return (.word (← host.version), driver)
  | init power => onDevice driver (host.init power)
  | isConnected => return (.flag (← host.isConnected), driver)
  | awaitDevice timeout =>
    return (.flag (← host.awaitDevice timeout), driver)
  | resetBus => onDevice driver host.resetBus
  | enumerate => onDevice driver host.enumerate
  | setIdle => onDevice driver host.setIdle
  | setInterface interface setting =>
    onDevice driver (host.setInterface interface setting)
  | start power timeout => onDevice driver (host.start power timeout)
  | control setup buffer =>
    return (.moved (← host.control driver.state setup buffer), driver)
  | transfer x buffer length =>
    return (.transferred (← host.transfer driver.state x buffer length), driver)
  | readReport report => do
    let (moved, state) ← (host.readReport report).run driver.state
    return (.moved moved, { driver with state })
  | poll => do
    let ((result, pad), state) ← (driver.pad.poll host).run driver.state
    return (.polled result, { state, pad })

end Operation

/-- Performs requests one after another; returns the answers in order. -/
def Driver.performAll {σ : Type} (host : Host σ) (driver : Driver) :
    List (Operation σ) → Run Register σ (List Reply × Driver)
  | [] => return ([], driver)
  | operation :: rest => do
    let (reply, driver) ← operation.perform host driver
    let (replies, driver) ← performAll host driver rest
    return (reply :: replies, driver)

end UsbHost
