import UsbHost.Wire.Records

/-!
# What the driver knows about the device

The state that the operations of the driver pass on: where the device answers,
how large its packets are, and which endpoint delivers its reports.
-/

namespace UsbHost

/-- What is known about the attached device. -/
structure Link where
  address : Byte := 0
  /-- The packet size of endpoint 0; eight until the device has told. -/
  ep0MaxPacket : Half := 8
  hid : Option HidEndpoint := none
  /-- Whether the next report is expected as DATA1. -/
  toggle : Bool := false
  enumerated : Bool := false
  speed : Speed := .full
deriving DecidableEq

namespace Link

/-- The identifier of the next report's packet. -/
def reportPid (s : Link) : Pid := .ofToggle s.toggle

/-- The packet size of an endpoint of the device. -/
def packetSizeOf (s : Link) (endpoint : Byte) : Half :=
  if endpoint = 0 then s.ep0MaxPacket
  else (s.hid.map (·.maxPacketSize)).getD s.ep0MaxPacket

/-- The state after a bus reset that ended at the given speed. -/
def afterReset (s : Link) (speed : Speed) : Link :=
  { s with speed, address := 0, ep0MaxPacket := 8, enumerated := false }

end Link

end UsbHost
