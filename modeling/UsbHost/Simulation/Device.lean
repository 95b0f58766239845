import UsbHost.Core.Register
import UsbHost.Wire.Packing
import UsbHost.Wire.Setup

/-!
# A simulated device

A gamepad at the other end of the bus, as a function from transactions to
responses.  It answers control transfers on endpoint 0 and hands out the
reports queued for its interrupt endpoint; faults can be injected.

## Main results

* `respond_of_forced` — a forced response leaves the device as it is.
-/

namespace UsbHost.Simulation

/-- One packet exchange as seen on the bus. -/
structure Transaction where
  channel : Channel
  address : BitVec 7
  endpoint : BitVec 4
  direction : Direction
  type : TransferType
  pid : Pid
  maxPacket : BitVec 11
  lowSpeed : Bool
  /-- The transfer size that was programmed. -/
  requested : Nat
  /-- What the host sent, or what the device answered. -/
  data : List Byte
deriving DecidableEq

/-- What a device does with a transaction. -/
inductive Response where
  | ack (data : List Byte)
  | nak
  | stall
  | error
  /-- No handshake at all; the channel stays busy. -/
  | silent
  /-- The channel halts without any other sign. -/
  | halted
deriving DecidableEq

/-- A control transfer that has begun. -/
structure PendingControl where
  setup : SetupPacket
  response : List Byte
  /-- How much of the response has been sent. -/
  sent : Nat := 0
  stalled : Bool
deriving DecidableEq

/-- The device descriptor of the gamepad. -/
def gamepadDescriptor : Vector Byte 18 :=
  #v[18, 1, 0x00, 0x02, 0xFF, 0xFF, 0xFF, 64, 0x5E, 0x04, 0x8E, 0x02, 0x14,
    0x01, 1, 2, 3, 1]

/-- The configuration of the gamepad: an interface with a descriptor of its
class, an interrupt-OUT endpoint 2 and an interrupt-IN endpoint 1. -/
def gamepadConfiguration : List Byte :=
  [9, 2, 38, 0, 1, 1, 0, 0xA0, 0xFA,
    9, 4, 0, 0, 2, 0xFF, 0x5D, 0x01, 0,
    6, 0x21, 0x10, 0x01, 0x01, 0x24,
    7, 5, 0x02, 0x03, 0x20, 0x00, 8,
    7, 5, 0x81, 0x03, 0x20, 0x00, 4]

/-- A device on the bus. -/
structure Device where
  address : Byte := 0
  /-- The packet size it really uses on endpoint 0. -/
  packetSize : Nat := 64
  descriptor : Vector Byte 18 := gamepadDescriptor
  configurationDescriptor : List Byte := gamepadConfiguration
  configuration : Option Byte := none
  idleRate : Option Byte := none
  /-- The data of OUT packets, in order. -/
  receivedOut : List Byte := []
  /-- Reports to be handed out, the next one first. -/
  reports : List (List Byte) := []
  /-- How many transactions it refuses before it answers. -/
  nakBudget : Nat := 0
  /-- The request code whose data and handshake it stalls. -/
  stallRequest : Option Byte := none
  /-- Answers every transaction with this instead. -/
  forced : Option Response := none
  control : Option PendingControl := none
deriving DecidableEq

namespace Device

variable (d : Device)

/-- Forgets what a bus reset makes a device forget. -/
def busReset : Device :=
  { d with address := 0, configuration := none, control := none }

/-! ## Requests -/

/-- The data with which the device answers a request, or `none` for a request
it does not know. -/
def answer? (setup : SetupPacket) : Option (List Byte) :=
  let request := SetupPacket.request.get setup
  let value := SetupPacket.value.get setup
  match setup.typeByte.toNat with
  | 0x80 =>
    if request = SetupPacket.getDescriptorCode then
      match (value >>> 8).toNat with
      | 1 => some d.descriptor.toList
      | 2 => some d.configurationDescriptor
      | _ => none
    else none
  | 0x00 =>
    if request = SetupPacket.setAddressCode ∨
        request = SetupPacket.setConfigurationCode then some []
    else none
  | 0x01 => if request = SetupPacket.setInterfaceCode then some [] else none
  | 0x21 =>
    if request = SetupPacket.setIdleCode ∨
        request = SetupPacket.setReportCode then some []
    else none
  | _ => none

/-- The effect of a request whose handshake has been seen. -/
def apply (setup : SetupPacket) : Device :=
  let request := SetupPacket.request.get setup
  let value := SetupPacket.value.get setup
  if request = SetupPacket.setAddressCode ∧ setup.typeByte = 0x00 then
    { d with address := value.setWidth 8 }
  else if request = SetupPacket.setConfigurationCode ∧
      setup.typeByte = 0x00 then
    { d with configuration := some (value.setWidth 8) }
  else if request = SetupPacket.setIdleCode ∧ setup.typeByte = 0x21 then
    { d with idleRate := some (value.extractLsb' 8 8) }
  else d

/-! ## Stages of a control transfer -/

/-- The SETUP stage. -/
def beginControl (t : Transaction) : Response × Device :=
  if t.data.length = 8 then
    let setup := SetupPacket.ofBytes t.data
    let known := d.answer? setup
    let pending : PendingControl :=
      { setup
        response := (known.getD []).take (SetupPacket.length.get setup).toNat
        stalled := known.isNone ||
          d.stallRequest = some (SetupPacket.request.get setup) }
    (.ack [], { d with control := some pending })
  else (.error, d)

/-- A packet of the data stage. -/
def controlData (t : Transaction) (c : PendingControl) : Response × Device :=
  match t.direction with
  | .toHost =>
    let size := min d.packetSize t.maxPacket.toNat
    let finish := min (c.sent + size) c.response.length
    (.ack ((c.response.take finish).drop c.sent),
      { d with control := some { c with sent := finish } })
  | .toDevice => (.ack [], { d with receivedOut := d.receivedOut ++ t.data })

/-- The handshake. -/
def controlStatus (t : Transaction) (c : PendingControl) : Response × Device :=
  if SetupPacket.length.get c.setup = 0 ∧ t.direction = .toDevice then
    (.stall, d)
  else (.ack [], { d with control := none }.apply c.setup)

/-- A control transaction on endpoint 0. -/
def controlTransaction (t : Transaction) : Response × Device :=
  if t.pid = .setup then d.beginControl t
  else
    match d.control with
    | none => (.stall, d)
    | some c =>
      if c.stalled then (.stall, d)
      else if SetupPacket.length.get c.setup = 0 ∨
          t.direction ≠ SetupPacket.direction.get c.setup then
        d.controlStatus t c
      else d.controlData t c

/-! ## Transactions -/

/-- Whether a transaction polls the interrupt endpoint. -/
def isPoll (t : Transaction) : Bool :=
  t.type = .interrupt && t.endpoint = 1 && t.direction = .toHost

/-- The response to a transaction, and the device after it. -/
def respond (t : Transaction) : Response × Device :=
  match d.forced with
  | some response => (response, d)
  | none =>
    if t.address.setWidth 8 ≠ d.address then (.silent, d)
    else if 0 < d.nakBudget then (.nak, { d with nakBudget := d.nakBudget - 1 })
    else if t.type = .control ∧ t.endpoint = 0 then d.controlTransaction t
    else if isPoll t then
      match d.reports with
      | report :: rest => (.ack report, { d with reports := rest })
      | [] => (.nak, d)
    else (.stall, d)

theorem respond_of_forced {response : Response} (h : d.forced = some response)
    (t : Transaction) : d.respond t = (response, d) := by
  simp [respond, h]

end Device

end UsbHost.Simulation
