import UsbHost.Host.Exchange
import UsbHost.Wire.Setup

/-!
# Control transfers

A request on endpoint 0: the SETUP packet, the data it announces in packets of
alternating identifiers, and the handshake in the opposite direction.  Each
packet is offered again while the device is not ready for it.
-/

namespace UsbHost

namespace Host

variable {σ : Type} (host : Host σ)

/-- Repeats an exchange while the device is not ready, with a pause between
two attempts, for the given number of attempts at most. -/
def persist (stage : Stage)
    (exchange : List Byte → Run Register σ (Moved TransferError)) :
    (attempts : Nat) → (buffer : List Byte) → Run Register σ (Moved UsbError)
  | 0, buffer => pure ⟨.error (.transfer stage .nak), buffer⟩
  | left + 1, buffer => do
    let moved ← exchange buffer
    match moved.result with
    | .ok count => return ⟨.ok count, moved.buffer⟩
    | .error .nak =>
      if 0 < left then
        host.core.delay host.settings.nakRetryDelay
      persist stage exchange left moved.buffer
    | .error cause => return ⟨.error (.transfer stage cause), moved.buffer⟩

/-- One packet of a control transfer, repeated while the device is not
ready. -/
def controlPacket (s : Link) (stage : Stage) (direction : Direction)
    (pid : Pid) (buffer : List Byte) : Run Register σ (Moved UsbError) :=
  host.persist stage
    (fun b => host.transfer s (.control direction pid) b b.length)
    host.settings.nakRetryLimit buffer

/-- How far a data stage has come. -/
structure DataStage where
  moved : Nat := 0
  pid : Pid := .data1
  buffer : List Byte

/-- Moves `total` bytes of the buffer in packets, DATA1 first.  An IN stage
also ends with the first packet that is not full. -/
def dataStage (s : Link) (direction : Direction) (total : Nat)
    (buffer : List Byte) : Run Register σ (Moved UsbError) :=
  Run.loop (fun stage : DataStage => do
    if stage.moved < total then
      let size := min (total - stage.moved) s.ep0MaxPacket.toNat
      let chunk ← Run.slice stage.buffer stage.moved (stage.moved + size)
      let packet ← host.controlPacket s .data direction stage.pid chunk
      let buffer := stage.buffer.take stage.moved ++ packet.buffer ++
        stage.buffer.drop (stage.moved + size)
      match packet.result with
      | .error e => return .inr ⟨.error e, buffer⟩
      | .ok count =>
        let moved := stage.moved + count
        if direction = .toHost ∧ count < s.ep0MaxPacket.toNat then
          return .inr ⟨.ok moved, buffer⟩
        return .inl { moved, pid := stage.pid.next, buffer }
    else
      return .inr ⟨.ok stage.moved, stage.buffer⟩) { buffer }

/-- The empty packet that ends a control transfer; what was moved before it is
the transfer's result if it succeeds. -/
def statusStage (s : Link) (direction : Direction) (count : Nat)
    (buffer : List Byte) : Run Register σ (Moved UsbError) := do
  let packet ← host.controlPacket s .status direction .data1 []
  match packet.result with
  | .ok _ => return ⟨.ok count, buffer⟩
  | .error e => return ⟨.error e, buffer⟩

/-- Runs a control transfer.  The data stage is left out if the request
announces no data or the buffer has no room.  The result is the number of
bytes moved in the data stage. -/
def control (s : Link) (setup : SetupPacket) (buffer : List Byte) :
    Run Register σ (Moved UsbError) := do
  let sent ← host.controlPacket s .setup .toDevice .setup setup.bytes
  match sent.result with
  | .error e => return ⟨.error e, buffer⟩
  | .ok _ =>
    let total := min (SetupPacket.length.get setup).toNat buffer.length
    let direction := SetupPacket.direction.get setup
    if 0 < total then
      let moved ← host.dataStage s direction total buffer
      match moved.result with
      | .ok count =>
        host.statusStage s direction.reversed count moved.buffer
      | .error _ => return moved
    else
      host.statusStage s .toHost 0 buffer

end Host

end UsbHost
