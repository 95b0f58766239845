import UsbHost.Host.Basic
import UsbHost.Wire.Packing

/-!
# Packet exchanges

One packet on one channel: the channel is halted, programmed and enabled, and
its interrupts are watched until they tell how the exchange ended or the time
limit has passed.  What an IN exchange receives is taken from the receive FIFO
that all channels share.
-/

namespace UsbHost

/-- What is to be exchanged with which endpoint. -/
structure Exchange where
  channel : Channel
  endpoint : Byte
  direction : Direction
  type : TransferType
  pid : Pid
deriving DecidableEq

/-- An exchange with endpoint 0. -/
def Exchange.control (direction : Direction) (pid : Pid) : Exchange :=
  { channel := .control, endpoint := 0, direction, type := .control, pid }

namespace Exchange

variable (x : Exchange) (s : Link)

/-- How many bytes are asked of the device, or sent to it, when `length` are
wanted or offered. -/
def requested (length : Nat) : Nat :=
  match x.direction with
  | .toHost => (s.packetSizeOf x.endpoint).toNat
  | .toDevice => min length (s.packetSizeOf x.endpoint).toNat

/-- What the channel is programmed with, its enable bit apart. -/
def characteristics (oddFrame : Bool) : ChannelCharacteristics :=
  ChannelCharacteristics.oddFrame.set oddFrame <|
  ChannelCharacteristics.deviceAddress.set (s.address.setWidth 7) <|
  ChannelCharacteristics.multiCount.set 1 <|
  ChannelCharacteristics.transferType.set x.type <|
  ChannelCharacteristics.lowSpeed.set (s.speed = .low) <|
  ChannelCharacteristics.direction.set x.direction <|
  ChannelCharacteristics.endpoint.set (x.endpoint.setWidth 4) <|
  ChannelCharacteristics.maxPacketSize.set
    ((s.packetSizeOf x.endpoint).setWidth 11) ⟨0⟩

/-- One packet of the given size. -/
def transferSize (bytes : BitVec 19) : TransferSize :=
  TransferSize.pid.set x.pid <| TransferSize.packetCount.set 1 <|
    TransferSize.bytes.set bytes ⟨0⟩

end Exchange

/-- How a channel's interrupts say the exchange ended, or `none` while it goes
on.  Completion wins over every failure. -/
def ChannelInterrupts.ending? (i : ChannelInterrupts) :
    Option (Except TransferError Unit) :=
  if i.contains ChannelInterrupts.transferComplete then some (.ok ())
  else if i.contains ChannelInterrupts.nak then some (.error .nak)
  else if i.contains ChannelInterrupts.stall then some (.error .stall)
  else if i.intersects ChannelInterrupts.errors then some (.error .error)
  else if i.contains ChannelInterrupts.halted then some (.error .error)
  else none

namespace Host

variable {σ : Type} (host : Host σ)

/-! ## Preparing a channel -/

/-- Disables the channel if it is running, and acknowledges all of its
interrupts. -/
def quiesce (c : Channel) : Run Register σ Unit := do
  let chars ← host.core.load (.channel c .characteristics)
  if ChannelCharacteristics.enable.get chars then
    host.core.store (.channel c .characteristics)
      (ChannelCharacteristics.disable.set true chars)
    let _ ← host.core.waitUntil host.settings.channelHaltTimeout do
      return (← host.core.load (.channel c .interrupts)).contains
        ChannelInterrupts.halted
  host.core.storeOnes (.channel c .interrupts)

/-- Waits for the next start of frame, so that a control packet is not
scheduled at the very end of one. -/
def awaitFrame : Run Register σ Unit := do
  host.core.store .interruptStatus CoreInterrupts.startOfFrame
  let _ ← host.core.waitUntil host.settings.startOfFrameTimeout do
    return (← host.core.load .interruptStatus).contains
      CoreInterrupts.startOfFrame
  host.core.store .interruptStatus CoreInterrupts.startOfFrame

/-- Waits until the transmit FIFO has room; returns whether it has. -/
def awaitTxSpace (words : Nat) : Run Register σ Bool :=
  host.core.waitUntil host.settings.txFifoTimeout do
    let status ← host.core.load .npTxStatus
    return words ≤ (NpTxStatus.spaceAvailable.get status).toNat

/-! ## The receive FIFO -/

/-- Takes `words` words off the channel's FIFO and appends their bytes to
`stored` as long as it is shorter than `keep`. -/
def takePacket (c : Channel) (keep : Nat) :
    (words : Nat) → (stored : List Byte) → Run Register σ (List Byte)
  | 0, stored => pure stored
  | words + 1, stored => do
    let word ← host.core.load (.fifo c)
    takePacket c keep words
      (stored ++ (wordBytes word).take (keep - stored.length))

/-- Empties the receive FIFO.  Of the channel's own data packets as much is
returned as fits into `room` bytes; entries without data are skipped, and the
words of packets for other channels are dropped. -/
def drain (c : Channel) (room : Nat) : Run Register σ (List Byte) :=
  Run.loop (fun stored => do
    let status ← host.core.load .interruptStatus
    if !status.contains CoreInterrupts.rxFifoLevel then
      return .inr stored
    let entry ← host.core.load .rxStatusPop
    if RxStatus.packetStatus.get entry ≠ .inData then
      return .inl stored
    let count := (RxStatus.byteCount.get entry).toNat
    let keep :=
      if (RxStatus.channel.get entry).toNat = c.val then
        min (stored.length + count) room
      else stored.length
    return .inl (← host.takePacket c keep (wordCount count) stored)) []

/-! ## The exchange -/

/-- Programs and enables the channel and hands it the bytes to send. -/
def launch (x : Exchange) (chars : ChannelCharacteristics) (requested : Nat)
    (buffer : List Byte) : Run Register σ Unit := do
  let size ← Run.narrow 19 requested
  host.core.store (.channel x.channel .transferSize) (x.transferSize size)
  host.core.barrier
  host.core.store (.channel x.channel .characteristics)
    (ChannelCharacteristics.enable.set true chars)
  host.core.barrier
  if x.direction = .toDevice then
    let packet ← Run.slice buffer 0 requested
    (packetWords packet).forM (host.core.store (.fifo x.channel))

/-- Watches the channel until the exchange has ended.  Of an IN packet at most
`room` bytes go to the front of the buffer. -/
def await (x : Exchange) (requested : Nat) (buffer : List Byte) (room : Nat) :
    Run Register σ (Moved TransferError) := do
  let deadline ← host.core.deadlineAfter host.settings.transferTimeout
  Run.loop (fun _ => do
    match (← host.core.load (.channel x.channel .interrupts)).ending? with
    | some (.ok _) =>
      match x.direction with
      | .toHost =>
        let received ← host.drain x.channel room
        host.core.storeOnes (.channel x.channel .interrupts)
        return .inr
          ⟨.ok received.length, received ++ buffer.drop received.length⟩
      | .toDevice =>
        host.core.storeOnes (.channel x.channel .interrupts)
        return .inr ⟨.ok requested, buffer⟩
    | some (.error e) =>
      host.core.storeOnes (.channel x.channel .interrupts)
      return .inr ⟨.error e, buffer⟩
    | none =>
      if ← host.core.expired deadline then
        host.quiesce x.channel
        return .inr ⟨.error .timeout, buffer⟩
      return .inl ()) ()

/-- Exchanges one packet.  An IN exchange asks for a packet of full size and
stores at most `length` bytes of what arrives; an OUT exchange sends at most
one packet from the first `length` bytes of the buffer. -/
def transfer (s : Link) (x : Exchange) (buffer : List Byte)
    (length : Nat) : Run Register σ (Moved TransferError) := do
  let room := min length buffer.length
  let requested := x.requested s room
  host.quiesce x.channel
  if x.type = .control then
    host.awaitFrame
  host.core.store (.channel x.channel .splitControl) 0
  let frame ← host.core.load .frameNumber
  host.core.storeOnes (.channel x.channel .interrupts)
  let fits ←
    if x.direction = .toDevice ∧ 0 < requested then
      host.awaitTxSpace (wordCount requested)
    else pure true
  if fits then
    host.launch x (x.characteristics s (frame.getLsbD 0)) requested buffer
    host.await x requested buffer room
  else
    return ⟨.error .error, buffer⟩

end Host

end UsbHost
