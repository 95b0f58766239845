import UsbHost.Core.Access
import UsbHost.Simulation.Device

/-!
# A simulated core

A DWC2 core in host mode with one device on its root port.  A transaction is
complete the moment its channel is enabled, or, if there is data to send, as
soon as the last word of it has arrived.

## Main results

* `stored_store_self`, `stored_store_of_ne` — plain storage keeps what was
  written to it.
* `channel_updateChannel_self`, `channel_updateChannel_of_ne` — a change of one
  channel leaves the others alone.
-/

namespace UsbHost.Simulation

/-! ## Parts -/

/-- The root port. -/
structure Port where
  attached : Bool := true
  enabled : Bool := false
  enableChanged : Bool := false
  connectDetected : Bool := true
  overcurrentChanged : Bool := false
  resetting : Bool := false
  powered : Bool := false
  /-- The speed code; its low two bits are reported. -/
  speed : Byte := 1
  /-- A write has turned the port off. -/
  disabledByWrite : Bool := false
  /-- Never comes up enabled after a reset. -/
  stuck : Bool := false
  writes : Nat := 0
deriving DecidableEq

/-- What the port register reads as. -/
def Port.register (p : Port) : HostPort :=
  HostPort.connected.set p.attached <|
  HostPort.connectDetected.set p.connectDetected <|
  HostPort.enabled.set p.enabled <|
  HostPort.enableChanged.set p.enableChanged <|
  HostPort.overcurrentChanged.set p.overcurrentChanged <|
  HostPort.reset.set p.resetting <|
  HostPort.power.set p.powered <|
  HostPort.speed.set (p.speed.setWidth 2) ⟨0⟩

/-- A host channel. -/
structure ChannelState where
  characteristics : Word := 0
  enabled : Bool := false
  split : Word := 0
  interrupts : Word := 0
  mask : Word := 0
  size : Word := 0
deriving DecidableEq

/-- An OUT packet that waits for the rest of its words. -/
structure PendingOut where
  transaction : Transaction
  words : List Word := []
deriving DecidableEq

/-! ## The core -/

/-- The core and the device on its port. -/
structure Controller where
  coreId : Word := 0x4F54280A
  port : Port := {}
  device : Device := {}
  /-- Every transaction, the latest one first. -/
  transactions : List Transaction := []
  /-- The number of register writes. -/
  writes : Nat := 0
  npTxStatus : Word := 0x00080100
  resetControl : Word := 0x80000000
  /-- The registers that are plain storage. -/
  stored : Register → Word := fun _ => 0
  channels : Vector ChannelState 8 := Vector.replicate 8 {}
  /-- The receive queue's entries. -/
  rxStatus : List Word := []
  /-- The receive queue's data, for all channels together. -/
  rxFifo : List Word := []
  pendingOut : Option PendingOut := none
  frame : Word := 0

/-- An entry of the receive queue. -/
def queueEntry (channel : BitVec 4) (byteCount : Nat) (status : PacketStatus) :
    Word :=
  channel.setWidth 32 ||| (BitVec.ofNat 32 byteCount <<< 4) |||
    ((PacketStatus.coding.encode status).setWidth 32 <<< 17)

namespace Controller

variable (k : Controller)

/-- Stores a word in a register that is plain storage. -/
def store (r : Register) (v : Word) : Controller :=
  { k with stored := fun r' => if r' = r then v else k.stored r' }

/-- The state of a channel. -/
def channel (c : Channel) : ChannelState := k.channels[c]

/-- Changes the state of a channel. -/
def updateChannel (c : Channel) (f : ChannelState → ChannelState) :
    Controller :=
  { k with channels := k.channels.set c (f (k.channel c)) }

@[simp] theorem stored_store_self (r : Register) (v : Word) :
    (k.store r v).stored r = v := by simp [store]

theorem stored_store_of_ne {r s : Register} (h : s ≠ r) (v : Word) :
    (k.store r v).stored s = k.stored s := by simp [store, h]

@[simp] theorem channel_updateChannel_self (c : Channel)
    (f : ChannelState → ChannelState) :
    (k.updateChannel c f).channel c = f (k.channel c) := by
  simp [channel, updateChannel]

theorem channel_updateChannel_of_ne {c d : Channel} (h : d ≠ c)
    (f : ChannelState → ChannelState) :
    (k.updateChannel c f).channel d = k.channel d := by
  have hv : c.val ≠ d.val := fun e => h (Fin.ext e.symm)
  simp [channel, updateChannel, hv]

/-! ## The receive queue -/

/-- Queues a data packet. -/
def queuePacket (channel : BitVec 4) (data : List Byte) : Controller :=
  { k with
    rxStatus := k.rxStatus ++ [queueEntry channel data.length .inData]
    rxFifo := k.rxFifo ++ packetWords data }

/-- Queues the announcement that a transfer is complete. -/
def queueCompletion (channel : BitVec 4) : Controller :=
  { k with
    rxStatus := k.rxStatus ++ [queueEntry channel 0 .inTransferComplete] }

/-! ## Transactions -/

/-- Whether a response leaves the channel busy. -/
def staysBusy (r : Response) : Bool := r = .silent

/-- The interrupts that a response raises. -/
def raised : Response → ChannelInterrupts
  | .ack _ =>
    ChannelInterrupts.transferComplete.union <|
      ChannelInterrupts.ack.union ChannelInterrupts.halted
  | .nak => ChannelInterrupts.nak.union ChannelInterrupts.halted
  | .stall => ChannelInterrupts.stall.union ChannelInterrupts.halted
  | .error => ChannelInterrupts.transactionError.union ChannelInterrupts.halted
  | .silent => FlagSet.empty
  | .halted => ChannelInterrupts.halted

/-- Puts a transaction on the bus. -/
def execute (t : Transaction) : Controller :=
  let (response, device) := k.device.respond t
  let k := { k with device }
  let k := k.updateChannel t.channel fun s =>
    { s with
      enabled := staysBusy response
      interrupts := s.interrupts ||| (raised response).bits }
  match response, t.direction with
  | .ack data, .toHost =>
    let channel := BitVec.ofNat 4 t.channel.val
    let k := (k.queuePacket channel data).queueCompletion channel
    { k with transactions := { t with data } :: k.transactions }
  | _, _ => { k with transactions := t :: k.transactions }

/-- The transaction that a channel is programmed for. -/
def programmed (c : Channel) (chars : ChannelCharacteristics) : Transaction :=
  let size : TransferSize := ⟨(k.channel c).size⟩
  { channel := c
    address := ChannelCharacteristics.deviceAddress.get chars
    endpoint := ChannelCharacteristics.endpoint.get chars
    direction := ChannelCharacteristics.direction.get chars
    type := ChannelCharacteristics.transferType.get chars
    pid := TransferSize.pid.get size
    maxPacket := ChannelCharacteristics.maxPacketSize.get chars
    lowSpeed := ChannelCharacteristics.lowSpeed.get chars
    requested := (TransferSize.bytes.get size).toNat
    data := [] }

/-- Enables a channel.  A packet with data to send has to wait for it. -/
def enable (c : Channel) (chars : ChannelCharacteristics) : Controller :=
  let t := k.programmed c chars
  let k := k.updateChannel c ({ · with enabled := true })
  if t.direction = .toDevice ∧ 0 < t.requested then
    { k with pendingOut := some { transaction := t } }
  else k.execute t

/-- Takes a word for the OUT packet that waits on the channel, if there is
one; the last one sends it. -/
def pushWord (c : Channel) (word : Word) : Controller :=
  match k.pendingOut with
  | none => k
  | some p =>
    if p.transaction.channel = c then
      let words := p.words ++ [word]
      if words.length < wordCount p.transaction.requested then
        { k with pendingOut := some { p with words } }
      else
        let data := (words.flatMap wordBytes).take p.transaction.requested
        { k with pendingOut := none }.execute { p.transaction with data }
    else k

/-! ## Reading -/

/-- What a channel register reads as. -/
def readChannel (c : Channel) : ChannelRegister → Word
  | .characteristics =>
    (ChannelCharacteristics.enable.set (k.channel c).enabled
      ⟨(k.channel c).characteristics⟩).raw
  | .splitControl => (k.channel c).split
  | .interrupts => (k.channel c).interrupts
  | .interruptMask => (k.channel c).mask
  | .transferSize => (k.channel c).size

/-- Whether the core has been put into host mode. -/
def inHostMode : Bool :=
  UsbConfig.forceHost.get ⟨k.stored .usbConfig⟩

/-- What the core's interrupt register reads as: every moment is a start of
frame. -/
def interruptStatus : CoreInterrupts :=
  let s := CoreInterrupts.startOfFrame
  let s := if k.rxStatus.isEmpty then s else s.union CoreInterrupts.rxFifoLevel
  if k.inHostMode then s.union CoreInterrupts.hostMode else s

/-- Reads a register. -/
def read (r : Register) : Word × Controller :=
  match r with
  | .coreId => (k.coreId, k)
  | .resetControl => (k.resetControl, k)
  | .interruptStatus => (k.interruptStatus.bits, k)
  | .npTxStatus => (k.npTxStatus, k)
  | .rxStatusPop => (k.rxStatus.headD 0, { k with rxStatus := k.rxStatus.tail })
  | .frameNumber =>
    let frame := k.frame + 1
    (frame &&& 0x3FFF, { k with frame })
  | .port => (k.port.register.raw, k)
  | .channel c r => (k.readChannel c r, k)
  | .fifo _ => (k.rxFifo.headD 0, { k with rxFifo := k.rxFifo.tail })
  | r => (k.stored r, k)

/-! ## Writing -/

/-- A write to the port: ones acknowledge changes, a one in the enable bit
turns the port off, and the end of a reset brings it up. -/
def writePort (v : HostPort) : Controller :=
  let p := k.port
  let off := HostPort.enabled.get v
  let p : Port :=
    { p with
      writes := p.writes + 1
      connectDetected := p.connectDetected && !HostPort.connectDetected.get v
      enabled := p.enabled && !off
      disabledByWrite := p.disabledByWrite || off
      enableChanged := p.enableChanged && !HostPort.enableChanged.get v
      overcurrentChanged :=
        p.overcurrentChanged && !HostPort.overcurrentChanged.get v
      powered := HostPort.power.get v }
  if HostPort.reset.get v then
    { k with port := { p with resetting := true, enabled := false } }
  else if p.resetting then
    let up := p.attached && !p.stuck
    { k with
      port :=
        { p with
          resetting := false
          enabled := p.enabled || up
          enableChanged := p.enableChanged || up }
      device := k.device.busReset }
  else { k with port := p }

/-- A write to a channel register. -/
def writeChannel (c : Channel) (r : ChannelRegister) (v : Word) : Controller :=
  match r with
  | .characteristics =>
    let chars : ChannelCharacteristics := ⟨v⟩
    let kept := (ChannelCharacteristics.enable.set false <|
      ChannelCharacteristics.disable.set false chars).raw
    if ChannelCharacteristics.disable.get chars then
      k.updateChannel c fun s =>
        { s with
          interrupts :=
            if s.enabled then s.interrupts ||| ChannelInterrupts.halted.bits
            else s.interrupts
          enabled := false
          characteristics := kept }
    else
      let k := k.updateChannel c ({ · with characteristics := kept })
      if ChannelCharacteristics.enable.get chars then k.enable c chars else k
  | .splitControl => k.updateChannel c ({ · with split := v })
  | .interrupts =>
    k.updateChannel c fun s => { s with interrupts := s.interrupts &&& ~~~v }
  | .interruptMask => k.updateChannel c ({ · with mask := v })
  | .transferSize => k.updateChannel c ({ · with size := v })

/-- Writes a register. -/
def write (r : Register) (v : Word) : Controller :=
  let k := { k with writes := k.writes + 1 }
  match r with
  | .interruptStatus => k
  | .resetControl => k
  | .port => k.writePort ⟨v⟩
  | .channel c r => k.writeChannel c r v
  | .fifo c => k.pushWord c v
  | r => k.store r v

/-- The register interface of the simulated core. -/
def bus : Bus Register Controller where
  read r k := k.read r
  write r v k := k.write r v

end Controller

end UsbHost.Simulation
