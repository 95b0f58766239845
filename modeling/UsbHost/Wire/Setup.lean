import UsbHost.Wire.Code

/-!
# SETUP packets

A control request travels as eight bytes.  They are kept as one 64-bit word
whose little-endian bytes are the wire format, so bits without a meaning are
passed through untouched.

## Main results

* `ofBytes_bytes` — a packet read back from its bytes is the same packet.
-/

namespace UsbHost

/-- The request a control transfer begins with. -/
structure SetupPacket where
  raw : BitVec 64
deriving DecidableEq

namespace SetupPacket

instance : Packed SetupPacket 64 := ⟨raw, mk, fun _ => rfl, fun _ => rfl⟩

/-! ## Fields -/

def recipient : BitField SetupPacket Recipient := .coded 0 Recipient.coding
def requestType : BitField SetupPacket RequestType :=
  .coded 5 RequestType.coding
def direction : BitField SetupPacket Direction := .coded 7 Direction.coding
def request : BitField SetupPacket Byte := .uint 8 8
def value : BitField SetupPacket Half := .uint 16 16
def index : BitField SetupPacket Half := .uint 32 16
def length : BitField SetupPacket Half := .uint 48 16

/-! ## Wire format -/

/-- The eight bytes on the wire. -/
def bytes (p : SetupPacket) : List Byte := littleEndian 8 p.raw

/-- Reads the eight bytes of a packet; absent ones count as zero. -/
def ofBytes (b : List Byte) : SetupPacket := ⟨ofLittleEndian 64 b⟩

theorem ofBytes_bytes (p : SetupPacket) : ofBytes p.bytes = p := by
  simp [ofBytes, bytes, ofLittleEndian_littleEndian]

/-- The first byte: direction, type and recipient together. -/
def typeByte (p : SetupPacket) : Byte := p.raw.extractLsb' 0 8

/-! ## Request codes -/

/-- GET_DESCRIPTOR -/
def getDescriptorCode : Byte := 0x06

/-- SET_ADDRESS -/
def setAddressCode : Byte := 0x05

/-- SET_CONFIGURATION -/
def setConfigurationCode : Byte := 0x09

/-- SET_INTERFACE -/
def setInterfaceCode : Byte := 0x0B

/-- SET_REPORT of the HID class -/
def setReportCode : Byte := 0x09

/-- SET_IDLE of the HID class -/
def setIdleCode : Byte := 0x0A

/-! ## Requests -/

/-- The packet with the given fields. -/
def ofFields (recipient : Recipient) (type : RequestType)
    (direction : Direction) (request : Byte) (value index length : Half) :
    SetupPacket :=
  SetupPacket.recipient.set recipient <|
  SetupPacket.requestType.set type <|
  SetupPacket.direction.set direction <|
  SetupPacket.request.set request <|
  SetupPacket.value.set value <|
  SetupPacket.index.set index <|
  SetupPacket.length.set length ⟨0⟩

/-- Asks the device for `length` bytes of a descriptor. -/
def getDescriptor (kind : DescriptorType) (index : Byte) (length : Half) :
    SetupPacket :=
  ofFields .device .standard .toHost getDescriptorCode
    (DescriptorType.coding.encode kind ++ index) 0 length

/-- Gives the device an address. -/
def setAddress (address : Byte) : SetupPacket :=
  ofFields .device .standard .toDevice setAddressCode
    (address.setWidth 16) 0 0

/-- Selects a configuration of the device. -/
def setConfiguration (value : Byte) : SetupPacket :=
  ofFields .device .standard .toDevice setConfigurationCode
    (value.setWidth 16) 0 0

/-- Selects an alternate setting of an interface. -/
def setInterface (interface setting : Byte) : SetupPacket :=
  ofFields .interface .standard .toDevice setInterfaceCode
    (setting.setWidth 16) (interface.setWidth 16) 0

/-- Sets how often a HID interface repeats an unchanged report; a duration of
zero asks for reports on change only. -/
def setIdle (interface duration : Byte) : SetupPacket :=
  ofFields .interface .deviceClass .toDevice setIdleCode
    (duration ++ (0 : Byte)) (interface.setWidth 16) 0

end SetupPacket

end UsbHost
