import UsbHost.Proofs.Host.Answers
import UsbHost.Proofs.Machine.Faultless

/-!
# The checks of exchanges and control transfers

What is programmed into a channel has to fit its field, and what is sent has to
lie in the caller's buffer; a control transfer slices its buffer at counts that
come from the core.  No check of these ever fails: an exchange never reports
more than it had room for, and never changes the length of its buffer.

## Main results

* `faultless_drain` — what is received fits into the room for it.
* `faultless_transfer` — exchanges.
* `faultless_dataRound` — a packet of a data stage.
* `faultless_control` — control transfers.
-/

namespace UsbHost.Host

open Run

variable {σ : Type} {host : Host σ}

/-! ## Exchanges -/

theorem faultless_quiesce (c : Channel) :
    (host.quiesce c).Faultless fun _ => True := by
  refine (host.core.faultless_load _).bind fun chars _ => ?_
  refine .ite (fun _ => ?_) fun _ => host.core.faultless_storeOnes _
  refine (host.core.faultless_store _ _).bind fun _ _ => ?_
  refine (host.core.faultless_waitUntil _ ?_).bind fun _ _ => ?_
  · exact host.core.faultless_inspect _ _
  · exact host.core.faultless_storeOnes _

theorem faultless_awaitFrame : host.awaitFrame.Faultless fun _ => True := by
  refine (host.core.faultless_store _ _).bind fun _ _ => ?_
  refine (host.core.faultless_waitUntil _ ?_).bind fun _ _ => ?_
  · exact host.core.faultless_inspect _ _
  · exact host.core.faultless_store _ _

theorem faultless_awaitTxSpace (words : Nat) :
    (host.awaitTxSpace words).Faultless fun _ => True :=
  host.core.faultless_waitUntil _ (host.core.faultless_inspect _ _)

theorem faultless_takePacket {c : Channel} {keep room : Nat}
    (hkeep : keep ≤ room) (words : Nat) {stored : List Byte}
    (hstored : stored.length ≤ room) :
    (host.takePacket c keep words stored).Faultless
      fun stored => stored.length ≤ room := by
  induction words generalizing stored with
  | zero => exact .pure hstored
  | succ words ih =>
    refine (host.core.faultless_load _).bind fun word _ => ih ?_
    rw [List.length_append, List.length_take]
    omega

/-- Up to where the bytes of an entry are kept. -/
def limit (c : Channel) (entry : RxStatus) (stored room : Nat) : Nat :=
  if (RxStatus.channel.get entry).toNat = c.val then
    min (stored + (RxStatus.byteCount.get entry).toNat) room
  else stored

theorem limit_le {c : Channel} {entry : RxStatus} {stored room : Nat}
    (h : stored ≤ room) : limit c entry stored room ≤ room := by
  unfold limit
  split
  · exact Nat.min_le_right _ _
  · exact h

/-- One entry of the receive FIFO. -/
def drainRound (host : Host σ) (c : Channel) (room : Nat)
    (stored : List Byte) : Run Register σ (List Byte ⊕ List Byte) := do
  let status ← host.core.load .interruptStatus
  if !status.contains CoreInterrupts.rxFifoLevel then
    return .inr stored
  let entry ← host.core.load .rxStatusPop
  if RxStatus.packetStatus.get entry ≠ .inData then
    return .inl stored
  return .inl (← host.takePacket c (limit c entry stored.length room)
    (wordCount (RxStatus.byteCount.get entry).toNat) stored)

theorem drain_eq (c : Channel) (room : Nat) :
    host.drain c room = Run.loop (host.drainRound c room) [] := rfl

theorem faultless_drainRound {c : Channel} {room : Nat} {stored : List Byte}
    (h : stored.length ≤ room) :
    (host.drainRound c room stored).Faultless (Faultless.Round
      (fun stored => stored.length ≤ room) fun stored =>
        stored.length ≤ room) := by
  refine (host.core.faultless_load _).bind fun status _ => ?_
  refine .ite (fun _ => .pure h) fun _ => ?_
  refine (host.core.faultless_load _).bind fun entry _ => ?_
  refine .ite (fun _ => .pure h) fun _ => ?_
  exact (faultless_takePacket (limit_le h) _ h).bind fun _ h' => .pure h'

theorem faultless_drain (c : Channel) (room : Nat) :
    (host.drain c room).Faultless fun received => received.length ≤ room := by
  rw [drain_eq]
  exact .loop _ (fun _ h => faultless_drainRound h) (Nat.zero_le room)

/-- What is sent lies in the buffer, and its size fits into its field. -/
theorem faultless_launch (s : Link) (x : Exchange)
    (chars : ChannelCharacteristics) {room : Nat} {buffer : List Byte}
    (hroom : room ≤ buffer.length) :
    (host.launch x chars (x.requested s room) buffer).Faultless
      fun _ => True := by
  refine (Faultless.narrow (x.toNat_requested s room)).bind fun size _ => ?_
  refine (host.core.faultless_store _ _).bind fun _ _ => ?_
  refine host.core.faultless_barrier.bind fun _ _ => ?_
  refine (host.core.faultless_store _ _).bind fun _ _ => ?_
  refine host.core.faultless_barrier.bind fun _ _ => ?_
  refine .ite (fun hout => ?_) fun _ => .pure trivial
  have hle : x.requested s room ≤ room := x.requested_le s hout
  refine (Faultless.slice (Nat.zero_le _) (Nat.le_trans hle hroom)).bind ?_
  exact fun packet _ => .forM fun word => host.core.faultless_store _ _

theorem faultless_await (x : Exchange) (requested : Nat) (buffer : List Byte)
    (room : Nat) :
    (host.await x requested buffer room).Faultless fun _ => True := by
  have hclear := host.core.faultless_storeOnes
    (.channel x.channel .interrupts)
  refine (host.core.faultless_deadlineAfter _).bind fun deadline _ => ?_
  refine .loop (fun _ => True) (fun _ _ => ?_) trivial
  refine (host.core.faultless_load _).bind fun interrupts _ => ?_
  split
  · cases x.direction with
    | toHost =>
      refine (faultless_drain _ _).bind fun received _ => ?_
      exact hclear.bind fun _ _ => .pure trivial
    | toDevice => exact hclear.bind fun _ _ => .pure trivial
  · exact hclear.bind fun _ _ => .pure trivial
  · refine (host.core.faultless_expired deadline).bind fun late _ => ?_
    refine .ite (fun _ => ?_) fun _ => .pure trivial
    exact (faultless_quiesce _).bind fun _ _ => .pure trivial

theorem faultless_offer (s : Link) (x : Exchange) {room : Nat}
    {buffer : List Byte} (hroom : room ≤ buffer.length) :
    (host.offer s x buffer room).Faultless fun _ => True := by
  have hattempt : ∀ frame fits,
      (host.attempt s x buffer room frame fits).Faultless fun _ => True := by
    intro frame fits
    cases fits with
    | true =>
      exact (faultless_launch s x _ hroom).bind fun _ _ =>
        faultless_await x _ _ _
    | false => exact .pure trivial
  refine (host.core.faultless_store _ _).bind fun _ _ => ?_
  refine (host.core.faultless_load _).bind fun frame _ => ?_
  refine (host.core.faultless_storeOnes _).bind fun _ _ => ?_
  refine .ite (fun _ => ?_) fun _ => ?_
  · exact (faultless_awaitTxSpace _).bind fun fits _ => hattempt frame fits
  · rw [pure_bind]
    exact hattempt frame true

/-- No check of an exchange ever fails. -/
theorem faultless_transfer (s : Link) (x : Exchange) (buffer : List Byte)
    (length : Nat) :
    (host.transfer s x buffer length).Faultless fun _ => True := by
  have hoffer : (host.offer s x buffer
      (min length buffer.length)).Faultless fun _ => True :=
    faultless_offer s x (Nat.min_le_right _ _)
  rw [host.transfer_eq]
  refine (faultless_quiesce _).bind fun _ _ => ?_
  refine .ite (fun _ => ?_) fun _ => hoffer
  exact faultless_awaitFrame.bind fun _ _ => hoffer

/-! ## Control transfers -/

theorem faultless_persist {stage : Stage}
    {exchange : List Byte → Run Register σ (Moved TransferError)}
    (h : ∀ b, (exchange b).Faultless fun _ => True) (attempts : Nat)
    (buffer : List Byte) :
    (host.persist stage exchange attempts buffer).Faultless fun _ => True := by
  induction attempts generalizing buffer with
  | zero => exact .pure trivial
  | succ left ih =>
    refine (h buffer).bind fun moved _ => ?_
    split
    · exact .pure trivial
    · refine .ite (fun _ => ?_) fun _ => ih _
      exact (host.core.faultless_delay _).bind fun _ _ => ih _
    · exact .pure trivial

theorem faultless_controlPacket (s : Link) (stage : Stage)
    (direction : Direction) (pid : Pid) (buffer : List Byte) :
    (host.controlPacket s stage direction pid buffer).Faultless
      fun packet => packet.Fills buffer :=
  ((faultless_persist (fun b => faultless_transfer s _ b _) _
    buffer).and_yields (yields_controlPacket_fills stage pid buffer)).mono
      fun _ h => h.1

/-- One packet of a data stage. -/
def dataRound (host : Host σ) (s : Link) (direction : Direction) (total : Nat)
    (stage : DataStage) : Run Register σ (DataStage ⊕ Moved UsbError) := do
  if stage.moved < total then
    let size := min (total - stage.moved) s.ep0MaxPacket.toNat
    let chunk ← Run.slice stage.buffer stage.moved (stage.moved + size)
    let packet ← host.controlPacket s .data direction stage.pid chunk
    let buffer := stage.buffer.take stage.moved ++ packet.buffer ++
      stage.buffer.drop (stage.moved + size)
    match packet.result with
    | .error e => return .inr ⟨.error e, buffer⟩
    | .ok count =>
      let moved := stage.moved + count
      if direction = .toHost ∧ count < s.ep0MaxPacket.toNat then
        return .inr ⟨.ok moved, buffer⟩
      return .inl { moved, pid := stage.pid.next, buffer }
  else
    return .inr ⟨.ok stage.moved, stage.buffer⟩

theorem dataStage_eq (s : Link) (direction : Direction) (total : Nat)
    (buffer : List Byte) :
    host.dataStage s direction total buffer =
      Run.loop (host.dataRound s direction total) { buffer } := rfl

/-- The part of the buffer that a packet stands for lies in it, because no
packet changes the length of the buffer. -/
theorem faultless_dataRound {s : Link} {direction : Direction} {total : Nat}
    {stage : DataStage} {length : Nat} (hlength : stage.buffer.length = length)
    (htotal : total ≤ length) :
    (host.dataRound s direction total stage).Faultless (Faultless.Round
      (fun stage => stage.buffer.length = length) fun _ => True) := by
  unfold dataRound
  refine .ite (fun hmore => ?_) fun _ => .pure trivial
  dsimp only
  obtain ⟨size, hsize⟩ : ∃ size,
      size = min (total - stage.moved) s.ep0MaxPacket.toNat := ⟨_, rfl⟩
  have hpart : stage.moved + size ≤ stage.buffer.length := by omega
  rw [← hsize, slice_eq (Nat.le_add_right _ _) hpart, pure_bind]
  refine (faultless_controlPacket s .data direction stage.pid _).bind ?_
  intro packet hpacket
  have hafter := hpacket.length_splice hpart
  split
  · exact .pure trivial
  · exact .ite (fun _ => .pure trivial) fun _ => .pure (hafter.trans hlength)

theorem faultless_dataStage (s : Link) (direction : Direction) {total : Nat}
    {buffer : List Byte} (htotal : total ≤ buffer.length) :
    (host.dataStage s direction total buffer).Faultless fun _ => True := by
  rw [dataStage_eq]
  exact .loop _ (fun stage h => faultless_dataRound h htotal) rfl

theorem faultless_statusStage (s : Link) (direction : Direction) (count : Nat)
    (buffer : List Byte) :
    (host.statusStage s direction count buffer).Faultless fun _ => True := by
  refine (faultless_controlPacket s .status direction .data1 []).bind ?_
  intro packet _
  split
  · exact .pure trivial
  · exact .pure trivial

/-- No check of a control transfer ever fails. -/
theorem faultless_control (s : Link) (setup : SetupPacket)
    (buffer : List Byte) :
    (host.control s setup buffer).Faultless
      fun moved => moved.Fills buffer := by
  have hfaultless : (host.control s setup buffer).Faultless
      fun _ => True := by
    refine (faultless_controlPacket s .setup .toDevice .setup _).bind ?_
    intro sent _
    split
    · exact .pure trivial
    · dsimp only
      refine .ite (fun _ => ?_) fun _ => faultless_statusStage s _ 0 buffer
      refine (faultless_dataStage s _ (Nat.min_le_right _ _)).bind ?_
      intro moved _
      split
      · exact faultless_statusStage s _ _ _
      · exact .pure trivial
  exact (hfaultless.and_yields (yields_control_fills host s setup buffer)).mono
    fun _ h => h.1

end UsbHost.Host
