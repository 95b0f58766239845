import UsbHost.Host.Exchange
import UsbHost.Proofs.Machine.Yields

/-!
# Exchanges and their buffers

What an exchange programs its channel with, and what it does to its buffer on
whatever hardware.  A failure leaves the buffer alone, an OUT exchange sends all
that it was to send, and an IN exchange stores no more than there is room for.

## Main results

* `characteristics_fields`, `transferSize_fields` — what the fields of the
  channel's registers say once they are written.
* `Host.transfer_eq` — the stages of an exchange.
* `yields_drain` — what is received fits into the room for it.
* `yields_transfer` — how an exchange leaves its buffer.
-/

namespace UsbHost

variable {σ : Type} {host : Host σ}

/-! ## What is programmed -/

theorem Exchange.requested_lt (x : Exchange) (s : Link) (room : Nat) :
    x.requested s room < 65536 := by
  have hsize := (s.packetSizeOf x.endpoint).isLt
  unfold Exchange.requested
  split
  · exact hsize
  · omega

/-- What is requested fits into the transfer size of a channel. -/
theorem Exchange.toNat_requested (x : Exchange) (s : Link) (room : Nat) :
    (BitVec.ofNat 19 (x.requested s room)).toNat = x.requested s room := by
  have hlt := x.requested_lt s room
  rw [BitVec.toNat_ofNat]
  omega

theorem Exchange.requested_le (x : Exchange) (s : Link) {room : Nat}
    (h : x.direction = .toDevice) : x.requested s room ≤ room := by
  unfold Exchange.requested
  rw [h]
  exact Nat.min_le_left _ _

/-- What the channel's characteristics say once they are written. -/
theorem characteristics_fields (x : Exchange) (s : Link) (oddFrame : Bool) :
    let chars := ChannelCharacteristics.enable.set true
      (x.characteristics s oddFrame)
    ChannelCharacteristics.enable.get chars = true ∧
      ChannelCharacteristics.disable.get chars = false ∧
      ChannelCharacteristics.deviceAddress.get chars =
        s.address.setWidth 7 ∧
      ChannelCharacteristics.endpoint.get chars = x.endpoint.setWidth 4 ∧
      ChannelCharacteristics.direction.get chars = x.direction ∧
      ChannelCharacteristics.transferType.get chars = x.type ∧
      ChannelCharacteristics.maxPacketSize.get chars =
        (s.packetSizeOf x.endpoint).setWidth 11 ∧
      ChannelCharacteristics.lowSpeed.get chars = (s.speed = .low : Bool) := by
  have hzero : ChannelCharacteristics.disable.get ⟨0⟩ = false := rfl
  simp (disch := decide) only [Exchange.characteristics,
    BitField.get_set_of_disjoint, BitField.get_set, hzero, and_self]

theorem transferSize_fields (x : Exchange) {n : Nat}
    (h : (BitVec.ofNat 19 n).toNat = n) :
    TransferSize.pid.get (x.transferSize (BitVec.ofNat 19 n)) = x.pid ∧
      (TransferSize.bytes.get
        (x.transferSize (BitVec.ofNat 19 n))).toNat = n := by
  simp (disch := decide) only [Exchange.transferSize,
    BitField.get_set_of_disjoint, BitField.get_set, h, and_self]

/-! ## The stages of an exchange -/

namespace Host

/-- Launches an exchange whose packet fits into the transmit FIFO, and watches
it. -/
def attempt (host : Host σ) (s : Link) (x : Exchange) (buffer : List Byte)
    (room : Nat) (frame : Half) (fits : Bool) :
    Run Register σ (Moved TransferError) := do
  if fits then
    host.launch x (x.characteristics s (frame.getLsbD 0)) (x.requested s room)
      buffer
    host.await x (x.requested s room) buffer room
  else
    return ⟨.error .error, buffer⟩

/-- An exchange on a channel at rest. -/
def offer (host : Host σ) (s : Link) (x : Exchange) (buffer : List Byte)
    (room : Nat) : Run Register σ (Moved TransferError) := do
  host.core.store (.channel x.channel .splitControl) 0
  let frame ← host.core.load .frameNumber
  host.core.storeOnes (.channel x.channel .interrupts)
  let fits ←
    if x.direction = .toDevice ∧ 0 < x.requested s room then
      host.awaitTxSpace (wordCount (x.requested s room))
    else pure true
  host.attempt s x buffer room frame fits

/-- An exchange brings its channel to rest, waits for a frame if it has to, and
offers its packet. -/
theorem transfer_eq (host : Host σ) (s : Link) (x : Exchange)
    (buffer : List Byte) (length : Nat) :
    host.transfer s x buffer length = (do
      host.quiesce x.channel
      if x.type = .control then
        host.awaitFrame
      host.offer s x buffer (min length buffer.length)) := rfl

end Host

/-! ## What becomes of the buffer -/

/-- How an exchange that was to send `requested` bytes, or had room for `room`
bytes, can leave its buffer. -/
def Exchange.Leaves (x : Exchange) (requested room : Nat) (buffer : List Byte)
    (moved : Moved TransferError) : Prop :=
  match moved.result, x.direction with
  | .error _, _ => moved.buffer = buffer
  | .ok count, .toDevice => count = requested ∧ moved.buffer = buffer
  | .ok count, .toHost => count ≤ room ∧
      ∃ received : List Byte, received.length = count ∧
        moved.buffer = received ++ buffer.drop count

namespace Exchange.Leaves

variable {x : Exchange} {requested room : Nat} {buffer : List Byte}
  {moved : Moved TransferError}

/-- No exchange changes the length of its buffer. -/
theorem length_eq (h : x.Leaves requested room buffer moved)
    (hroom : room ≤ buffer.length) : moved.buffer.length = buffer.length := by
  obtain ⟨result, bytes⟩ := moved
  unfold Leaves at h
  cases result with
  | error e => exact congrArg List.length h
  | ok count =>
    cases hx : x.direction with
    | toDevice =>
      rw [hx] at h
      exact congrArg List.length h.2
    | toHost =>
      rw [hx] at h
      obtain ⟨hcount, received, hlength, rfl⟩ := h
      rw [List.length_append, List.length_drop]
      omega

/-- What an exchange reports is no more than it could move, and if it sends,
all of it. -/
theorem count_eq (h : x.Leaves requested room buffer moved) {count : Nat}
    (hr : moved.result = .ok count) :
    (x.direction = .toDevice → count = requested) ∧
      (x.direction = .toHost → count ≤ room) := by
  unfold Leaves at h
  rw [hr] at h
  cases hx : x.direction with
  | toDevice =>
    rw [hx] at h
    exact ⟨fun _ => h.1, nofun⟩
  | toHost =>
    rw [hx] at h
    exact ⟨nofun, fun _ => h.1⟩

end Exchange.Leaves

/-- Taking a packet stores no more than there is room for. -/
theorem yields_takePacket {c : Channel} {keep room words : Nat}
    {stored : List Byte} {w : World Register σ} (hkeep : keep ≤ room)
    (hstored : stored.length ≤ room) :
    (host.takePacket c keep words stored).Yields False w
      fun stored' _ => stored'.length ≤ room := by
  induction words generalizing stored w with
  | zero => exact .pure hstored
  | succ words ih =>
    refine .bind_any fun word w' => ih ?_
    rw [List.length_append, List.length_take]
    omega

/-- Draining the receive FIFO stores no more than there is room for. -/
theorem yields_drain {c : Channel} {room : Nat} {w : World Register σ} :
    (host.drain c room).Yields False w
      fun received _ => received.length ≤ room := by
  refine .loop (fun stored _ => stored.length ≤ room) (fun _ _ => 0) ?_
    (Nat.zero_le room)
  intro stored w hstored
  refine .bind_any fun status w => ?_
  split
  · exact .pure hstored
  · refine .bind_any fun entry w => ?_
    split
    · exact .pure ⟨hstored, False.elim⟩
    · refine (yields_takePacket ?_ hstored).bind fun stored' w' h =>
        .pure ⟨h, False.elim⟩
      split
      · exact Nat.min_le_right _ _
      · exact hstored

/-- However its channel ends, an exchange leaves its buffer in one of three
ways. -/
theorem yields_await {x : Exchange} {requested room : Nat}
    {buffer : List Byte} {w : World Register σ} :
    (host.await x requested buffer room).Yields False w
      fun moved _ => x.Leaves requested room buffer moved := by
  refine .bind_any fun deadline w => ?_
  refine .loop (fun _ _ => True) (fun _ _ => 0) ?_ trivial
  intro _ w _
  refine .bind_any fun interrupts w => ?_
  split
  · cases hx : x.direction with
    | toHost =>
      refine yields_drain.bind fun received w hroom => .bind_any fun _ w => ?_
      refine .pure ?_
      show x.Leaves requested room buffer _
      unfold Exchange.Leaves
      rw [hx]
      exact ⟨hroom, received, rfl, rfl⟩
    | toDevice =>
      refine .bind_any fun _ w => .pure ?_
      show x.Leaves requested room buffer _
      unfold Exchange.Leaves
      rw [hx]
      exact ⟨rfl, rfl⟩
  · exact .bind_any fun _ w => .pure rfl
  · refine .bind_any fun late w => ?_
    split
    · exact .bind_any fun _ w => .pure rfl
    · exact .pure ⟨trivial, False.elim⟩

/-- An exchange on a channel at rest. -/
theorem yields_offer {s : Link} {x : Exchange} {buffer : List Byte}
    {room : Nat} {w : World Register σ} :
    (host.offer s x buffer room).Yields False w
      fun moved _ => x.Leaves (x.requested s room) room buffer moved := by
  refine .bind_any fun _ w => .bind_any fun frame w => .bind_any fun _ w => ?_
  have hattempt : ∀ fits w, (host.attempt s x buffer room frame fits).Yields
      False w fun moved _ => x.Leaves (x.requested s room) room buffer moved := by
    intro fits w
    cases fits with
    | true => exact .bind_any fun _ w => yields_await
    | false => exact .pure rfl
  dsimp only
  split
  · exact .bind_any hattempt
  · exact .bind_any hattempt

/-- However it ends, an exchange leaves its buffer in one of three ways. -/
theorem yields_transfer (host : Host σ) (s : Link) (x : Exchange)
    (buffer : List Byte) (length : Nat) (w : World Register σ) :
    (host.transfer s x buffer length).Yields False w fun moved _ =>
      x.Leaves (x.requested s (min length buffer.length))
        (min length buffer.length) buffer moved := by
  rw [host.transfer_eq]
  refine .bind_any fun _ w => ?_
  dsimp only
  split
  · exact .bind_any fun _ w => yields_offer
  · exact yields_offer

end UsbHost
