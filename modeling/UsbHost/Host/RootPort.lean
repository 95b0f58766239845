import UsbHost.Host.Basic

/-!
# The root port

Detection of a device and the bus reset that brings it into its default state.
-/

namespace UsbHost

namespace Host

variable {σ : Type} (host : Host σ)

/-- Whether a device is connected. -/
def isConnected : Run Register σ Bool :=
  return HostPort.connected.get (← host.core.load .port)

/-- Polls the port until a device is connected or `timeout` has passed;
returns whether one is.  No pause is longer than the time left. -/
def awaitDevice (timeout : Duration) : Run Register σ Bool := do
  let deadline ← host.core.deadlineAfter timeout
  Run.loop (fun _ => do
    if ← host.isConnected then
      return .inr true
    if ← host.core.expired deadline then
      return .inr false
    let left ← host.core.timeLeft deadline
    host.core.delay (min host.settings.portPollInterval left)
    return .inl ()) ()

/-- Polls the port until it is enabled and returns the speed, or `none` if it
is not in time.  A change of the enable bit is acknowledged when seen. -/
def awaitEnabled : Run Register σ (Option Speed) := do
  let deadline ← host.core.deadlineAfter host.settings.portEnableTimeout
  Run.loop (fun _ => do
    let port ← host.core.load .port
    if HostPort.enableChanged.get port then
      host.core.acknowledgePort PortChanges.enableChanged
    if HostPort.enabled.get port then
      return .inr (some (.ofCode (HostPort.speed.get port).toNat))
    if ← host.core.expired deadline then
      return .inr none
    host.core.delay host.settings.portPollInterval
    return .inl ()) ()

/-- Resets the bus and waits for the port to come up enabled.  Afterwards the
device is back at address 0 with packets of eight bytes on endpoint 0.
Nothing is touched if no device is connected. -/
def resetBus : HostM σ Unit := do
  if !(← host.isConnected) then
    throw .noDevice
  host.core.acknowledgePort FlagSet.all
  host.core.delay host.settings.portPollInterval
  host.core.updatePort { reset := some true }
  host.core.delay host.settings.resetHold
  host.core.updatePort { reset := some false }
  host.core.delay host.settings.resetSettle
  match ← host.awaitEnabled with
  | some speed => modify (·.afterReset speed)
  | none => throw .portEnableTimeout

end Host

end UsbHost
