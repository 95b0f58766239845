import UsbHost.Bits.Division
import UsbHost.Wire.Code

/-!
# Standard descriptors

The fixed parts of the descriptors a device hands out.  Each is read from the
front of a byte string that is long enough; 16-bit quantities are
little-endian.

## Main results

* `readExact?_eq_some_iff` — an exact read is a read from the front of a byte
  string of just the right length.
-/

namespace UsbHost

/-! ## Reading fixed layouts -/

/-- The byte at a position; past the end it is zero. -/
def byteAt (bytes : List Byte) (i : Nat) : Byte := bytes[i]?.getD 0

/-- The little-endian 16-bit quantity at a position. -/
def halfAt (bytes : List Byte) (i : Nat) : Half :=
  byteAt bytes (i + 1) ++ byteAt bytes i

/-- A fixed layout: its size, and how a byte string of at least that size is
read. -/
structure Layout (α : Type) where
  size : Nat
  view : List Byte → α

namespace Layout

variable {α : Type} (l : Layout α)

/-- Reads the front of a byte string that is long enough. -/
def readFront? (bytes : List Byte) : Option α :=
  if l.size ≤ bytes.length then some (l.view bytes) else none

/-- Reads a byte string of just the right length. -/
def readExact? (bytes : List Byte) : Option α :=
  if bytes.length = l.size then some (l.view bytes) else none

theorem readExact?_eq_some_iff {bytes : List Byte} {a : α} :
    l.readExact? bytes = some a ↔
      bytes.length = l.size ∧ l.readFront? bytes = some a := by
  unfold readExact? readFront?
  by_cases h : bytes.length = l.size
  · simp [h]
  · simp [h]

end Layout

/-! ## Descriptors -/

/-- The device descriptor. -/
structure DeviceDescriptor where
  length : Byte
  descriptorType : Byte
  usbVersion : Half
  deviceClass : Byte
  deviceSubClass : Byte
  deviceProtocol : Byte
  /-- The packet size of endpoint 0. -/
  maxPacketSize : Byte
  vendorId : Half
  productId : Half
  deviceVersion : Half
  vendorString : Byte
  productString : Byte
  serialString : Byte
  configurationCount : Byte
deriving DecidableEq

/-- Eighteen bytes. -/
def DeviceDescriptor.layout : Layout DeviceDescriptor where
  size := 18
  view b :=
    { length := byteAt b 0
      descriptorType := byteAt b 1
      usbVersion := halfAt b 2
      deviceClass := byteAt b 4
      deviceSubClass := byteAt b 5
      deviceProtocol := byteAt b 6
      maxPacketSize := byteAt b 7
      vendorId := halfAt b 8
      productId := halfAt b 10
      deviceVersion := halfAt b 12
      vendorString := byteAt b 14
      productString := byteAt b 15
      serialString := byteAt b 16
      configurationCount := byteAt b 17 }

/-- The head of a configuration descriptor. -/
structure ConfigurationHeader where
  length : Byte
  descriptorType : Byte
  totalLength : Half
  interfaceCount : Byte
  /-- The value that selects this configuration. -/
  value : Byte
  name : Byte
  attributes : Byte
  /-- In units of 2 mA. -/
  maxPower : Byte
deriving DecidableEq

/-- Nine bytes. -/
def ConfigurationHeader.layout : Layout ConfigurationHeader where
  size := 9
  view b :=
    { length := byteAt b 0
      descriptorType := byteAt b 1
      totalLength := halfAt b 2
      interfaceCount := byteAt b 4
      value := byteAt b 5
      name := byteAt b 6
      attributes := byteAt b 7
      maxPower := byteAt b 8 }

/-- An interface descriptor. -/
structure InterfaceDescriptor where
  length : Byte
  descriptorType : Byte
  number : Byte
  alternateSetting : Byte
  endpointCount : Byte
  interfaceClass : Byte
  interfaceSubClass : Byte
  interfaceProtocol : Byte
  name : Byte
deriving DecidableEq

/-- Nine bytes. -/
def InterfaceDescriptor.layout : Layout InterfaceDescriptor where
  size := 9
  view b :=
    { length := byteAt b 0
      descriptorType := byteAt b 1
      number := byteAt b 2
      alternateSetting := byteAt b 3
      endpointCount := byteAt b 4
      interfaceClass := byteAt b 5
      interfaceSubClass := byteAt b 6
      interfaceProtocol := byteAt b 7
      name := byteAt b 8 }

/-! ## Endpoints -/

/-- The address byte of an endpoint. -/
structure EndpointAddress where
  raw : Byte
deriving DecidableEq

namespace EndpointAddress

instance : Packed EndpointAddress 8 := ⟨raw, mk, fun _ => rfl, fun _ => rfl⟩

def number : BitField EndpointAddress (BitVec 4) := .uint 0 4
def direction : BitField EndpointAddress Direction := .coded 7 Direction.coding

def division : Division EndpointAddress where
  parts :=
    [.field ⟨"number", number⟩, .reserved 3, .field ⟨"direction", direction⟩]

end EndpointAddress

/-- The attribute byte of an endpoint. -/
structure EndpointAttributes where
  raw : Byte
deriving DecidableEq

namespace EndpointAttributes

instance : Packed EndpointAttributes 8 := ⟨raw, mk, fun _ => rfl, fun _ => rfl⟩

def transferType : BitField EndpointAttributes TransferType :=
  .coded 0 TransferType.coding
def syncType : BitField EndpointAttributes (BitVec 2) := .uint 2 2
def usageType : BitField EndpointAttributes (BitVec 2) := .uint 4 2

def division : Division EndpointAttributes where
  parts :=
    [.field ⟨"transfer type", transferType⟩, .field ⟨"sync type", syncType⟩,
      .field ⟨"usage type", usageType⟩, .reserved 2]

end EndpointAttributes

/-- An endpoint descriptor. -/
structure EndpointDescriptor where
  length : Byte
  descriptorType : Byte
  address : EndpointAddress
  attributes : EndpointAttributes
  maxPacketSize : Half
  /-- In frames or microframes, depending on speed. -/
  interval : Byte
deriving DecidableEq

namespace EndpointDescriptor

/-- Seven bytes. -/
def layout : Layout EndpointDescriptor where
  size := 7
  view b :=
    { length := byteAt b 0
      descriptorType := byteAt b 1
      address := ⟨byteAt b 2⟩
      attributes := ⟨byteAt b 3⟩
      maxPacketSize := halfAt b 4
      interval := byteAt b 6 }

/-- The packet size without the high-bandwidth multiplier bits. -/
def packetSize (e : EndpointDescriptor) : Half := e.maxPacketSize &&& 0x7FF

/-- Whether the endpoint delivers interrupt data to the host. -/
def isInterruptIn (e : EndpointDescriptor) : Bool :=
  EndpointAddress.direction.get e.address = .toHost &&
    EndpointAttributes.transferType.get e.attributes = .interrupt

end EndpointDescriptor

end UsbHost
