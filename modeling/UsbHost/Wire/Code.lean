import UsbHost.Bits.BitField

/-!
# Enumerations and their codes

The enumerations that requests, descriptors and registers are made of, each
with the bit patterns that stand for its values.  Where the codes do not fill
their width, the remaining patterns all decode to `reserved`, whose own pattern
is all ones.

## Main results

* `Direction.coding_exact` and its siblings — codings whose every pattern is
  canonical.
* `Pid.next_next` — the data toggle has period two.
-/

namespace UsbHost

/-! ## Direction of a transfer -/

/-- Which way a packet goes, seen from the host: OUT is to the device and IN
is to the host. -/
inductive Direction where
  | toDevice
  | toHost
deriving DecidableEq, Inhabited

namespace Direction

/-- The other direction. -/
def reversed : Direction → Direction
  | toDevice => toHost
  | toHost => toDevice

/-- A set bit means IN. -/
def coding : Coding Direction 1 where
  decode b := if b.getLsbD 0 then toHost else toDevice
  encode
    | toDevice => 0
    | toHost => 1
  decode_encode a := by cases a <;> rfl

theorem coding_exact : coding.Exact := by
  unfold Coding.Exact; decide

end Direction

/-! ## Parts of a request -/

/-- Who defines a request. -/
inductive RequestType where
  | standard
  | deviceClass
  | vendor
  | reserved
deriving DecidableEq, Inhabited

/-- The four codes in order. -/
def RequestType.coding : Coding RequestType 2 where
  decode b :=
    match b.toNat with
    | 0 => .standard
    | 1 => .deviceClass
    | 2 => .vendor
    | _ => .reserved
  encode
    | .standard => 0
    | .deviceClass => 1
    | .vendor => 2
    | .reserved => 3
  decode_encode a := by cases a <;> rfl

theorem RequestType.coding_exact : RequestType.coding.Exact := by
  unfold Coding.Exact; decide

/-- What a request is addressed to. -/
inductive Recipient where
  | device
  | interface
  | endpoint
  | other
  | reserved
deriving DecidableEq, Inhabited

/-- Codes 0 to 3; all others are reserved. -/
def Recipient.coding : Coding Recipient 5 where
  decode b :=
    match b.toNat with
    | 0 => .device
    | 1 => .interface
    | 2 => .endpoint
    | 3 => .other
    | _ => .reserved
  encode
    | .device => 0
    | .interface => 1
    | .endpoint => 2
    | .other => 3
    | .reserved => 0x1F
  decode_encode a := by cases a <;> rfl

/-! ## Packets -/

/-- The packet identifier that a transfer starts with. -/
inductive Pid where
  | data0
  | mdata
  | data1
  | setup
deriving DecidableEq, Inhabited

namespace Pid

/-- The four codes in order. -/
def coding : Coding Pid 2 where
  decode b :=
    match b.toNat with
    | 0 => data0
    | 1 => mdata
    | 2 => data1
    | _ => setup
  encode
    | data0 => 0
    | mdata => 1
    | data1 => 2
    | setup => 3
  decode_encode a := by cases a <;> rfl

theorem coding_exact : coding.Exact := by
  unfold Coding.Exact; decide

/-- The next data packet's identifier.  What is not part of the toggle
sequence is followed by DATA0. -/
def next : Pid → Pid
  | data0 => data1
  | _ => data0

/-- DATA1 for a set toggle, DATA0 otherwise. -/
def ofToggle : Bool → Pid
  | true => data1
  | false => data0

theorem ofToggle_not (b : Bool) : ofToggle (!b) = (ofToggle b).next := by
  cases b <;> rfl

theorem next_next (b : Bool) :
    (ofToggle b).next.next = ofToggle b := by
  cases b <;> rfl

end Pid

/-- How an endpoint moves its data. -/
inductive TransferType where
  | control
  | isochronous
  | bulk
  | interrupt
deriving DecidableEq, Inhabited

/-- The four codes in order, in descriptors and channel registers alike. -/
def TransferType.coding : Coding TransferType 2 where
  decode b :=
    match b.toNat with
    | 0 => .control
    | 1 => .isochronous
    | 2 => .bulk
    | _ => .interrupt
  encode
    | .control => 0
    | .isochronous => 1
    | .bulk => 2
    | .interrupt => 3
  decode_encode a := by cases a <;> rfl

theorem TransferType.coding_exact : TransferType.coding.Exact := by
  unfold Coding.Exact; decide

/-- What an entry of the receive queue announces. -/
inductive PacketStatus where
  | inData
  | inTransferComplete
  | toggleError
  | channelHalted
  | reserved
deriving DecidableEq, Inhabited

/-- Codes 2, 3, 5 and 7; all others are reserved. -/
def PacketStatus.coding : Coding PacketStatus 4 where
  decode b :=
    match b.toNat with
    | 2 => .inData
    | 3 => .inTransferComplete
    | 5 => .toggleError
    | 7 => .channelHalted
    | _ => .reserved
  encode
    | .inData => 2
    | .inTransferComplete => 3
    | .toggleError => 5
    | .channelHalted => 7
    | .reserved => 0xF
  decode_encode a := by cases a <;> rfl

/-! ## Descriptors -/

/-- What a descriptor describes. -/
inductive DescriptorType where
  | device
  | configuration
  | string
  | interface
  | endpoint
  | deviceQualifier
  | otherSpeedConfiguration
  | interfacePower
  | humanInputDevice
  | hidReport
  | reserved
deriving DecidableEq, Inhabited

/-- Codes 1 to 8 and the two of the HID class; all others are reserved. -/
def DescriptorType.coding : Coding DescriptorType 8 where
  decode b :=
    match b.toNat with
    | 1 => .device
    | 2 => .configuration
    | 3 => .string
    | 4 => .interface
    | 5 => .endpoint
    | 6 => .deviceQualifier
    | 7 => .otherSpeedConfiguration
    | 8 => .interfacePower
    | 0x21 => .humanInputDevice
    | 0x22 => .hidReport
    | _ => .reserved
  encode
    | .device => 1
    | .configuration => 2
    | .string => 3
    | .interface => 4
    | .endpoint => 5
    | .deviceQualifier => 6
    | .otherSpeedConfiguration => 7
    | .interfacePower => 8
    | .humanInputDevice => 0x21
    | .hidReport => 0x22
    | .reserved => 0xFF
  decode_encode a := by cases a <;> rfl

/-! ## Speed of a port -/

/-- The speed a device has negotiated. -/
inductive Speed where
  | high
  | full
  | low
deriving DecidableEq, Inhabited

/-- Decodes a speed code; what is neither high nor low is taken for full. -/
def Speed.ofCode : Nat → Speed
  | 0 => .high
  | 2 => .low
  | _ => .full

end UsbHost
