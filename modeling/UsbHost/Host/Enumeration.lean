import UsbHost.Host.Bringup
import UsbHost.Host.ControlTransfer
import UsbHost.Host.RootPort

/-!
# Enumeration

Addressing and configuring the one attached device, from a freshly reset port
to an endpoint that can be polled.  A failing step ends enumeration and leaves
the device unenumerated; completed steps are not undone.
-/

namespace UsbHost

/-- The address given to the device. -/
def assignedAddress : Byte := 1

/-- The packet size of endpoint 0 that a device descriptor announces; eight
for anything that is not a legal size. -/
def ep0PacketSize (announced : Byte) : Half :=
  if announced ∈ [8, 16, 32, 64] then announced.setWidth 16 else 8

/-- The value that selects a configuration: the one its header names, or 1 if
the header is incomplete. -/
def configurationValue (configuration : List Byte) : Byte :=
  ((ConfigurationHeader.layout.readFront? configuration).map (·.value)).getD 1

namespace Host

variable {σ : Type} (host : Host σ)

/-- Runs a control transfer with the device as it is known, and returns how
many bytes were moved and the buffer after it. -/
def request (setup : SetupPacket) (buffer : List Byte) :
    HostM σ (Nat × List Byte) := do
  let moved ← host.control (← get) setup buffer
  match moved.result with
  | .ok count => return (count, moved.buffer)
  | .error e => throw e

/-- Reads at most `size` bytes of a descriptor into a buffer of as many
zeros. -/
def readDescriptor (kind : DescriptorType) (size : Nat) :
    HostM σ (Nat × List Byte) :=
  host.request (.getDescriptor kind 0 (BitVec.ofNat 16 size))
    (List.replicate size 0)

/-- Addresses and configures the device and locates its endpoint. -/
def enumerate : HostM σ Unit := do
  modify ({ · with enumerated := false })
  let (_, head) ← host.readDescriptor .device 8
  let ep0MaxPacket := ep0PacketSize (byteAt head 7)
  modify ({ · with ep0MaxPacket })
  host.resetBus
  modify ({ · with ep0MaxPacket })
  host.core.delay host.settings.resetSettle
  let _ ← host.request (.setAddress assignedAddress) []
  modify ({ · with address := assignedAddress })
  host.core.delay host.settings.addressSettle
  let _ ← host.readDescriptor .device 18
  let (count, buffer) ← host.readDescriptor .configuration 64
  let configuration ←
    (Run.slice buffer 0 count : Run Register σ (List Byte))
  match HidEndpoint.find? configuration with
  | none => throw .noInterruptEndpoint
  | some hid =>
    modify ({ · with hid := some hid, toggle := false })
    let value := configurationValue configuration
    let _ ← host.request (.setConfiguration value) []
    modify ({ · with enumerated := true })

/-! ## Requests to an enumerated device -/

/-- Asks the interface of the endpoint to report on change only. -/
def setIdle : HostM σ Unit := do
  match (← get).hid with
  | none => throw .notEnumerated
  | some hid =>
    let _ ← host.request (.setIdle hid.interface 0) []

/-- Selects an alternate setting of an interface. -/
def setInterface (interface setting : Byte) : HostM σ Unit := do
  if (← get).enumerated then
    let _ ← host.request (.setInterface interface setting) []
  else
    throw .notEnumerated

/-! ## Start -/

/-- Brings up the core, waits for a device for at most `timeout`, resets the
port and enumerates.  Many input devices reject the request to report on
change only, so its failure is passed over. -/
def start (power : PowerSwitch σ) (timeout : Duration) : HostM σ Unit := do
  host.init power
  if !(← host.awaitDevice timeout) then
    throw .noDevice
  host.resetBus
  host.enumerate
  tryCatch host.setIdle fun _ => pure ()

end Host

end UsbHost
