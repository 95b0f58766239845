import Mathlib.Algebra.GroupWithZero.Nat
import UsbHost.Proofs.Host.Checks

/-!
# Indices and field values

The driver says what is received as a list that grows.  A program that stores it
in place keeps two running indices instead, slices the caller's buffer at them,
and adds to them what the core reports; and what goes into a field of a register
has to fit there.  Here the exchanges and the control transfer are written with
all of these steps, each with its check, over indices of a fixed width.  They
are the programs that run: no check among them ever fails.

## Main results

* `drainInto_eq` — the receive FIFO, emptied into a buffer.
* `checkedCharacteristics_eq` — the fields of a channel.
* `checkedTransfer_eq`, `checkedControl_eq` — exchanges and control transfers.
* `checkedRecord_eq` — the walk over a configuration.
-/

namespace UsbHost

open Run

variable {ρ σ α β γ δ : Type}

namespace Run

/-! ## Programs that agree -/

/-- What follows a program may be replaced by what does the same on all of its
results. -/
theorem bind_congr_of_yields {p : Run ρ σ α} {f g : α → Run ρ σ β}
    {R : α → Prop} (hp : ∀ w, p.Yields False w fun a _ => R a)
    (h : ∀ a, R a → f a = g a) : p >>= f = p >>= g := by
  funext n w
  change EStateM.bind (p n) (fun a => f a n) w =
    EStateM.bind (p n) (fun a => g a n) w
  simp only [EStateM.bind]
  cases hrun : p n w with
  | ok a w' => exact congrFun (congrFun (h a ((hp w).of_run hrun)) n) w'
  | error e w' => rfl

/-- Two loops agree if their rounds do, where `f` says which of their values
belong together. -/
theorem loop_map {body : β → Run ρ σ (β ⊕ α)}
    {body' : γ → Run ρ σ (γ ⊕ δ)} {f : β → γ} {g : α → δ} (I : β → Prop)
    {R : α → Prop}
    (hI : ∀ b, I b → (body b).Faultless (Faultless.Round I R))
    (hbody : ∀ b, I b → body' (f b) = body b >>= fun r => pure (r.map f g))
    {b : β} (hb : I b) :
    Run.loop body' (f b) = Run.loop body b >>= fun a => pure (g a) := by
  have hrounds : ∀ j b, I b → rounds j body' (f b) =
      rounds j body b >>= fun a => pure (g a) := by
    intro j
    induction j with
    | zero => exact fun _ _ => rfl
    | succ j ih =>
      intro b hb
      rw [rounds_succ, rounds_succ, hbody b hb, bind_assoc, bind_assoc]
      refine bind_congr_of_yields (hI b hb).yields fun r hr => ?_
      rw [pure_bind]
      cases r with
      | inl b' => exact ih b' hr
      | inr a => rfl
  funext n w
  exact congrFun (congrFun (hrounds n b hb) n) w

/-- Two loops agree if their rounds do. -/
theorem loop_congr {body body' : β → Run ρ σ (β ⊕ α)} (I : β → Prop)
    {R : α → Prop}
    (hI : ∀ b, I b → (body b).Faultless (Faultless.Round I R))
    (hbody : ∀ b, I b → body' b = body b) {b : β} (hb : I b) :
    Run.loop body' b = Run.loop body b := by
  have hsame : ∀ b, I b → body' (id b) =
      body b >>= fun r => pure (r.map id id) := by
    intro b hb
    simp only [id, hbody b hb, Sum.map_id_id, bind_pure]
  exact (loop_map I hI hsame hb).trans (bind_pure _)

/-! ## Checked arithmetic -/

/-- The sum of two numbers, which an index of `bits` bits has to hold. -/
def sum (bits a b : Nat) : Run ρ σ Nat :=
  if a + b < 2 ^ bits then pure (a + b) else throw .addOverflow

/-- What is left of `a` without `b`, which must not be more. -/
def difference (a b : Nat) : Run ρ σ Nat :=
  if b ≤ a then pure (a - b) else throw .outOfRange

theorem sum_eq {bits a b : Nat} (h : a + b < 2 ^ bits) :
    (sum bits a b : Run ρ σ Nat) = pure (a + b) :=
  if_pos h

theorem difference_eq {a b : Nat} (h : b ≤ a) :
    (difference a b : Run ρ σ Nat) = pure (a - b) :=
  if_pos h

/-- A value that has been masked to the bits of its field fits into it. -/
theorem narrow_masked {w width : Nat} {v mask : BitVec w}
    (hmask : mask.toNat = 2 ^ width - 1) :
    (narrow width (v &&& mask).toNat : Run ρ σ (BitVec width)) =
      pure (v.setWidth width) := by
  have hvalue : (v &&& mask).toNat = v.toNat % 2 ^ width := by
    rw [BitVec.toNat_and, hmask, Nat.and_two_pow_sub_one_eq_mod]
  have hfits : (BitVec.ofNat width (v &&& mask).toNat).toNat =
      (v &&& mask).toNat := by
    rw [BitVec.toNat_ofNat, hvalue, Nat.mod_mod]
  rw [narrow_eq hfits]
  refine congrArg pure (BitVec.eq_of_toNat_eq ?_)
  rw [hfits, hvalue, BitVec.toNat_setWidth]

end Run

/-- A buffer of `length` bytes lies in memory that indices of `bits` bits
address: no object takes up half of it. -/
structure Addressable (bits length : Nat) : Prop where
  width : 16 ≤ bits
  half : length < 2 ^ (bits - 1)

/-- Half of the memory holds any short buffer. -/
theorem two_pow_le_half {bits : Nat} (h : 16 ≤ bits) :
    2 ^ 15 ≤ 2 ^ (bits - 1) :=
  Nat.pow_le_pow_right (by decide) (Nat.le_sub_of_add_le h)

theorem Addressable.of_short {bits length : Nat} (h : 16 ≤ bits)
    (hlength : length < 2 ^ 15) : Addressable bits length :=
  ⟨h, Nat.lt_of_lt_of_le hlength (two_pow_le_half h)⟩

/-- An index into a buffer can be moved on by a packet of the largest size that
is reported. -/
theorem Addressable.index {bits length : Nat} (h : Addressable bits length) :
    length + 4096 < 2 ^ bits := by
  have hdouble : 2 ^ bits = 2 ^ (bits - 1) * 2 := by
    rw [← Nat.pow_succ, Nat.succ_eq_add_one, Nat.sub_add_cancel]
    exact Nat.le_trans (by decide) h.width
  have hlarge := two_pow_le_half h.width
  have hhalf := h.half
  omega

theorem Addressable.shorter {bits length length' : Nat}
    (h : Addressable bits length) (hle : length' ≤ length) :
    Addressable bits length' :=
  ⟨h.width, Nat.lt_of_le_of_lt hle h.half⟩

/-! ## Words -/

/-- Stores up to four bytes of a word at the front of `room`, with both slices
checked. -/
def checkedSpill (word : Word) (room : List Byte) :
    Run ρ σ (Nat × List Byte) := do
  let count := min room.length 4
  let _ ← Run.slice room 0 count
  let bytes ← Run.slice (wordBytes word) 0 count
  return (count, bytes ++ room.drop count)

theorem checkedSpill_eq (word : Word) (room : List Byte) :
    (checkedSpill word room : Run ρ σ (Nat × List Byte)) =
      pure (spillWord word room) := by
  have hroom : min room.length 4 ≤ room.length := Nat.min_le_left _ _
  have hword : min room.length 4 ≤ (wordBytes word).length := by
    rw [length_wordBytes]
    exact Nat.min_le_right _ _
  unfold checkedSpill
  dsimp only
  rw [slice_eq (Nat.zero_le _) hroom, pure_bind,
    slice_eq (Nat.zero_le _) hword, pure_bind, List.drop_zero]
  exact congrArg pure (Prod.ext rfl (spillWord_eq word room).symm)

/-! ## The receive FIFO -/

/-- A buffer after the bytes received so far have been stored at its front. -/
def storedIn (out received : List Byte) : List Byte :=
  received ++ out.drop received.length

theorem length_storedIn {out received : List Byte}
    (h : received.length ≤ out.length) :
    (storedIn out received).length = out.length := by
  simp only [storedIn, List.length_append, List.length_drop]
  omega

/-- The next bytes of a packet go behind what has been received. -/
theorem storedIn_append {out received bytes room : List Byte} {keep count : Nat}
    (hfrom : received.length ≤ keep)
    (hroom : room = ((storedIn out received).take keep).drop received.length)
    (hcount : count = min (keep - received.length) bytes.length) :
    (storedIn out received).take received.length ++
        (bytes.take count ++ room.drop count) ++
          (storedIn out received).drop keep =
      storedIn out (received ++ bytes.take count) := by
  have hlength : (received ++ bytes.take count).length =
      received.length + count := by
    rw [List.length_append, List.length_take, hcount]
    omega
  have hrest : room = (out.drop received.length).take
      (keep - received.length) := by
    rw [hroom, storedIn, List.take_append, List.take_of_length_le hfrom,
      List.drop_left]
  have hbehind : (storedIn out received).drop keep = out.drop keep := by
    rw [storedIn, List.drop_append, List.drop_of_length_le hfrom,
      List.nil_append, List.drop_drop, Nat.add_sub_cancel' hfrom]
  -- What is left of the room and what lies behind it are one rest of `out`.
  have hjoin : room.drop count ++ out.drop keep =
      out.drop (received.length + count) := by
    have hkeep : keep = received.length + count +
        (keep - received.length - count) := by
      omega
    have hlast : out.drop keep = (out.drop (received.length + count)).drop
        (keep - received.length - count) := by
      rw [List.drop_drop, ← hkeep]
    rw [hrest, hlast, List.drop_take, List.drop_drop, List.take_append_drop]
  have hfront : (storedIn out received).take received.length = received :=
    List.take_left
  rw [hfront, hbehind, List.append_assoc, List.append_assoc, hjoin,
    ← List.append_assoc, storedIn, hlength]

namespace Host

section Programs

variable (host : Host σ) (bits : Nat)

/-- Takes `words` words off the channel's FIFO.  They go to the buffer from
index `stored` on, up to index `keep`. -/
def takeInto (c : Channel) (keep : Nat) :
    (words : Nat) → (stored : Nat) → (out : List Byte) →
      Run Register σ (Nat × List Byte)
  | 0, stored, out => pure (stored, out)
  | words + 1, stored, out => do
    let word ← host.core.load (.fifo c)
    if stored < keep then
      let room ← Run.slice out stored keep
      let (count, filled) ← checkedSpill word room
      let stored' ← Run.sum bits stored count
      takeInto c keep words stored' (out.take stored ++ filled ++ out.drop keep)
    else takeInto c keep words stored out

/-- Up to where the bytes of an entry are kept. -/
def checkedLimit (c : Channel) (entry : RxStatus) (stored room : Nat) :
    Run ρ σ Nat := do
  if (RxStatus.channel.get entry).toNat = c.val then
    return min (← Run.sum bits stored (RxStatus.byteCount.get entry).toNat) room
  else return stored

/-- One entry of the receive FIFO, of which the bytes go to the buffer from
index `stored` on. -/
def drainRoundInto (c : Channel) :
    Nat × List Byte → Run Register σ ((Nat × List Byte) ⊕ (Nat × List Byte))
  | (stored, out) => do
    let status ← host.core.load .interruptStatus
    if !status.contains CoreInterrupts.rxFifoLevel then
      return .inr (stored, out)
    let entry ← host.core.load .rxStatusPop
    if RxStatus.packetStatus.get entry ≠ .inData then
      return .inl (stored, out)
    let keep ← checkedLimit bits c entry stored out.length
    let rounded ← Run.sum bits (RxStatus.byteCount.get entry).toNat 3
    return .inl (← host.takeInto bits c keep (rounded / 4) stored out)

/-- Empties the receive FIFO into `out`.  Returns how many bytes have been
stored, and the buffer. -/
def drainInto (c : Channel) (out : List Byte) :
    Run Register σ (Nat × List Byte) :=
  Run.loop (host.drainRoundInto bits c) (0, out)

end Programs

section Receive

variable {host : Host σ} {bits : Nat} {c : Channel} {out received : List Byte}

/-- Words that are taken off the FIFO go behind what has been received. -/
theorem takeInto_eq {keep : Nat} (hbits : keep < 2 ^ bits)
    (hkeep : keep ≤ out.length) (words : Nat)
    (hfits : received.length ≤ out.length) :
    host.takeInto bits c keep words received.length (storedIn out received) =
      host.takePacket c keep words received >>= fun received =>
        pure (received.length, storedIn out received) := by
  induction words generalizing received with
  | zero => rfl
  | succ words ih =>
    simp only [takeInto, takePacket, bind_assoc]
    refine bind_congr fun word => ?_
    by_cases hmore : received.length < keep
    · have hfrom : received.length ≤ keep := Nat.le_of_lt hmore
      have hslice : keep ≤ (storedIn out received).length := by
        rw [length_storedIn hfits]
        exact hkeep
      obtain ⟨room, hroom⟩ : ∃ room, room =
        ((storedIn out received).take keep).drop received.length := ⟨_, rfl⟩
      have hcount : (spillWord word room).1 =
          min (keep - received.length) (wordBytes word).length := by
        rw [hroom, length_wordBytes, spillWord, List.length_drop,
          List.length_take, Nat.min_eq_left hslice]
      have hindex : received.length + (spillWord word room).1 < 2 ^ bits := by
        omega
      have hbytes : (wordBytes word).take (keep - received.length) =
          (wordBytes word).take (spillWord word room).1 := by
        rw [hcount, ← List.take_eq_take_min]
      have hlength : (received ++ (wordBytes word).take
          (spillWord word room).1).length =
            received.length + (spillWord word room).1 := by
        rw [List.length_append, List.length_take]
        omega
      rw [if_pos hmore, slice_eq hfrom hslice, pure_bind, ← hroom,
        checkedSpill_eq, pure_bind, sum_eq hindex, pure_bind, spillWord_eq,
        storedIn_append hfrom hroom hcount, hbytes, ← hlength]
      exact ih (by omega)
    · have hnone : keep - received.length = 0 := by omega
      rw [if_neg hmore, hnone, List.take_zero, List.append_nil]
      exact ih hfits

theorem checkedLimit_eq {entry : RxStatus} {stored room : Nat}
    (hbits : room + 4096 < 2 ^ bits) (hstored : stored ≤ room) :
    (checkedLimit bits c entry stored room : Run ρ σ Nat) =
      pure (limit c entry stored room) := by
  have hcount := (RxStatus.byteCount.get entry).isLt
  unfold checkedLimit limit
  split
  · rw [sum_eq (by omega), pure_bind]
  · rfl

theorem drainRoundInto_eq (hbits : Addressable bits out.length)
    (hfits : received.length ≤ out.length) :
    host.drainRoundInto bits c (received.length, storedIn out received) =
      host.drainRound c out.length received >>= fun r => pure (r.map
        (fun received => (received.length, storedIn out received))
        fun received => (received.length, storedIn out received)) := by
  have hindex := hbits.index
  simp only [drainRoundInto, drainRound, bind_assoc]
  refine bind_congr fun status => ?_
  split
  · rfl
  · rw [bind_assoc]
    refine bind_congr fun entry => ?_
    have hcount := (RxStatus.byteCount.get entry).isLt
    split
    · rfl
    · have hkeep : limit c entry received.length out.length ≤ out.length :=
        limit_le hfits
      rw [length_storedIn hfits, checkedLimit_eq hindex hfits, pure_bind,
        sum_eq (by omega), pure_bind,
        takeInto_eq (Nat.lt_of_le_of_lt hkeep (by omega)) hkeep _ hfits,
        bind_assoc, bind_assoc]
      rfl

/-- The receive FIFO is emptied into a buffer as the driver says: what it
returns stands at the front of the buffer, and nothing else has changed. -/
theorem drainInto_eq (c : Channel) (hbits : Addressable bits out.length) :
    host.drainInto bits c out = host.drain c out.length >>= fun received =>
      pure (received.length, storedIn out received) :=
  loop_map (f := fun received : List Byte =>
      (received.length, storedIn out received))
    (fun received => received.length ≤ out.length)
    (fun _ h => faultless_drainRound h) (fun _ h => drainRoundInto_eq hbits h)
    (b := []) (Nat.zero_le _)

end Receive

/-! ## Exchanges -/

section Programs

variable (host : Host σ) (bits : Nat)

/-- What the channel is programmed with, its enable bit apart, each field
masked to its width. -/
def checkedCharacteristics (s : Link) (x : Exchange) (oddFrame : Bool) :
    Run ρ σ ChannelCharacteristics := do
  let size ← Run.narrow 11 (s.packetSizeOf x.endpoint &&& 0x7FF).toNat
  let endpoint ← Run.narrow 4 (x.endpoint &&& 0xF).toNat
  let count ← Run.narrow 2 1
  let address ← Run.narrow 7 (s.address &&& 0x7F).toNat
  return ChannelCharacteristics.oddFrame.set oddFrame <|
    ChannelCharacteristics.deviceAddress.set address <|
    ChannelCharacteristics.multiCount.set count <|
    ChannelCharacteristics.transferType.set x.type <|
    ChannelCharacteristics.lowSpeed.set (s.speed = .low) <|
    ChannelCharacteristics.direction.set x.direction <|
    ChannelCharacteristics.endpoint.set endpoint <|
    ChannelCharacteristics.maxPacketSize.set size ⟨0⟩

/-- Watches the channel until the exchange has ended.  An IN packet is received
into the first `room` bytes of the buffer. -/
def awaitInto (x : Exchange) (requested : Nat) (buffer : List Byte)
    (room : Nat) : Run Register σ (Moved TransferError) := do
  let deadline ← host.core.deadlineAfter host.settings.transferTimeout
  Run.loop (fun _ => do
    match (← host.core.load (.channel x.channel .interrupts)).ending? with
    | some (.ok _) =>
      match x.direction with
      | .toHost =>
        let out ← Run.slice buffer 0 room
        let (count, filled) ← host.drainInto bits x.channel out
        host.core.storeOnes (.channel x.channel .interrupts)
        return .inr ⟨.ok count, filled ++ buffer.drop room⟩
      | .toDevice =>
        host.core.storeOnes (.channel x.channel .interrupts)
        return .inr ⟨.ok requested, buffer⟩
    | some (.error e) =>
      host.core.storeOnes (.channel x.channel .interrupts)
      return .inr ⟨.error e, buffer⟩
    | none =>
      if ← host.core.expired deadline then
        host.quiesce x.channel
        return .inr ⟨.error .timeout, buffer⟩
      return .inl ()) ()

/-- An exchange on a channel at rest. -/
def checkedOffer (s : Link) (x : Exchange) (buffer : List Byte) (room : Nat) :
    Run Register σ (Moved TransferError) := do
  let requested := x.requested s room
  host.core.store (.channel x.channel .splitControl) 0
  let frame ← host.core.load .frameNumber
  let chars ← checkedCharacteristics s x (frame.getLsbD 0)
  host.core.storeOnes (.channel x.channel .interrupts)
  let fits ←
    if x.direction = .toDevice ∧ 0 < requested then
      Run.sum bits requested 3 >>= fun rounded => host.awaitTxSpace (rounded / 4)
    else pure true
  if fits then
    host.launch x chars requested buffer
    host.awaitInto bits x requested buffer room
  else
    return ⟨.error .error, buffer⟩

/-- Exchanges one packet, with every index and every field checked. -/
def checkedTransfer (s : Link) (x : Exchange) (buffer : List Byte)
    (length : Nat) : Run Register σ (Moved TransferError) := do
  host.quiesce x.channel
  if x.type = .control then
    host.awaitFrame
  host.checkedOffer bits s x buffer (min length buffer.length)

end Programs

section Exchange

variable {host : Host σ} {bits : Nat} {s : Link} {x : Exchange}
  {buffer : List Byte}

theorem checkedCharacteristics_eq (s : Link) (x : Exchange) (oddFrame : Bool) :
    (checkedCharacteristics s x oddFrame : Run ρ σ ChannelCharacteristics) =
      pure (x.characteristics s oddFrame) := by
  unfold checkedCharacteristics
  rw [narrow_masked (by decide), pure_bind, narrow_masked (by decide),
    pure_bind, narrow_eq (by decide), pure_bind, narrow_masked (by decide),
    pure_bind]
  rfl

/-- What has been received into a part of a buffer stands at the front of the
buffer. -/
theorem storedIn_part {received : List Byte} {room : Nat}
    (h : received.length ≤ room) :
    storedIn (buffer.take room) received ++ buffer.drop room =
      storedIn buffer received := by
  have hrest : (buffer.take room).drop received.length ++ buffer.drop room =
      buffer.drop received.length := by
    have hroom : buffer.drop room =
        (buffer.drop received.length).drop (room - received.length) := by
      rw [List.drop_drop, Nat.add_sub_cancel' h]
    rw [List.drop_take, hroom, List.take_append_drop]
  rw [storedIn, List.append_assoc, hrest, storedIn]

theorem awaitInto_eq (hbits : Addressable bits buffer.length) {room : Nat}
    (hroom : room ≤ buffer.length) (requested : Nat) :
    host.awaitInto bits x requested buffer room =
      host.await x requested buffer room := by
  have hlength : (buffer.take room).length = room := by
    rw [List.length_take, Nat.min_eq_left hroom]
  have hpart : Addressable bits (buffer.take room).length :=
    hbits.shorter (List.length_take_le' _ _)
  refine bind_congr fun deadline => congrArg (Run.loop · ()) ?_
  funext _
  refine bind_congr fun interrupts => ?_
  generalize ChannelInterrupts.ending? interrupts = ending
  rcases ending with _ | (e | u)
  · rfl
  · rfl
  · cases x.direction with
    | toDevice => rfl
    | toHost =>
      dsimp only
      rw [slice_eq (Nat.zero_le _) hroom, pure_bind, List.drop_zero,
        drainInto_eq x.channel hpart, bind_assoc, hlength]
      refine bind_congr_of_yields (faultless_drain _ _).yields ?_
      intro received hreceived
      rw [pure_bind]
      dsimp only
      rw [storedIn_part hreceived, storedIn]

theorem checkedOffer_eq (hbits : Addressable bits buffer.length) {room : Nat}
    (hroom : room ≤ buffer.length) :
    host.checkedOffer bits s x buffer room = host.offer s x buffer room := by
  have hindex := hbits.index
  refine bind_congr fun _ => bind_congr fun frame => ?_
  rw [checkedCharacteristics_eq, pure_bind, awaitInto_eq hbits hroom]
  refine bind_congr fun _ => ?_
  by_cases hsends : x.direction = .toDevice ∧ 0 < x.requested s room
  · have hle : x.requested s room ≤ room := x.requested_le s hsends.1
    rw [if_pos hsends, if_pos hsends, sum_eq (by omega), pure_bind]
    rfl
  · rw [if_neg hsends, if_neg hsends]
    rfl

/-- An exchange with all of its checks is the one that runs. -/
theorem checkedTransfer_eq (hbits : Addressable bits buffer.length)
    (length : Nat) :
    host.checkedTransfer bits s x buffer length =
      host.transfer s x buffer length := by
  rw [transfer_eq, ← checkedOffer_eq hbits (Nat.min_le_right _ _)]
  rfl

end Exchange

/-! ## Control transfers -/

section Programs

variable (host : Host σ) (bits : Nat)

/-- One packet of a control transfer, repeated while the device is not
ready. -/
def checkedPacket (s : Link) (stage : Stage) (direction : Direction) (pid : Pid)
    (buffer : List Byte) : Run Register σ (Moved UsbError) :=
  host.persist stage
    (fun b => host.checkedTransfer bits s (.control direction pid) b b.length)
    host.settings.nakRetryLimit buffer

/-- One packet of a data stage, cut out of the buffer and counted. -/
def checkedDataRound (s : Link) (direction : Direction) (total : Nat)
    (stage : DataStage) : Run Register σ (DataStage ⊕ Moved UsbError) := do
  if stage.moved < total then
    let left ← Run.difference total stage.moved
    let stop ← Run.sum bits stage.moved (min left s.ep0MaxPacket.toNat)
    let chunk ← Run.slice stage.buffer stage.moved stop
    let packet ← host.checkedPacket bits s .data direction stage.pid chunk
    let buffer := stage.buffer.take stage.moved ++ packet.buffer ++
      stage.buffer.drop stop
    match packet.result with
    | .error e => return .inr ⟨.error e, buffer⟩
    | .ok count =>
      let moved ← Run.sum bits stage.moved count
      if direction = .toHost ∧ count < s.ep0MaxPacket.toNat then
        return .inr ⟨.ok moved, buffer⟩
      return .inl { moved, pid := stage.pid.next, buffer }
  else
    return .inr ⟨.ok stage.moved, stage.buffer⟩

/-- Moves `total` bytes of the buffer in packets. -/
def checkedDataStage (s : Link) (direction : Direction) (total : Nat)
    (buffer : List Byte) : Run Register σ (Moved UsbError) :=
  Run.loop (host.checkedDataRound bits s direction total) { buffer }

/-- The empty packet that ends a control transfer. -/
def checkedStatusStage (s : Link) (direction : Direction) (count : Nat)
    (buffer : List Byte) : Run Register σ (Moved UsbError) := do
  let packet ← host.checkedPacket bits s .status direction .data1 []
  match packet.result with
  | .ok _ => return ⟨.ok count, buffer⟩
  | .error e => return ⟨.error e, buffer⟩

/-- Runs a control transfer, with every index and every field checked. -/
def checkedControl (s : Link) (setup : SetupPacket) (buffer : List Byte) :
    Run Register σ (Moved UsbError) := do
  let sent ← host.checkedPacket bits s .setup .toDevice .setup setup.bytes
  match sent.result with
  | .error e => return ⟨.error e, buffer⟩
  | .ok _ =>
    let total := min (SetupPacket.length.get setup).toNat buffer.length
    let direction := SetupPacket.direction.get setup
    if 0 < total then
      let moved ← host.checkedDataStage bits s direction total buffer
      match moved.result with
      | .ok count =>
        host.checkedStatusStage bits s direction.reversed count moved.buffer
      | .error _ => return moved
    else
      host.checkedStatusStage bits s .toHost 0 buffer

end Programs

section Control

variable {host : Host σ} {bits : Nat} {s : Link} {direction : Direction}
  {buffer : List Byte}

/-- Repeating an exchange does the same as repeating another one that agrees
with it on the buffers that come up. -/
theorem persist_congr {stage : Stage}
    {exchange exchange' : List Byte → Run Register σ (Moved TransferError)}
    {I : List Byte → Prop}
    (hkeep : ∀ b, I b → ∀ w, (exchange b).Yields False w
      fun moved _ => I moved.buffer)
    (hsame : ∀ b, I b → exchange' b = exchange b) (attempts : Nat)
    (hbuffer : I buffer) :
    host.persist stage exchange' attempts buffer =
      host.persist stage exchange attempts buffer := by
  induction attempts generalizing buffer with
  | zero => rfl
  | succ left ih =>
    unfold persist
    rw [hsame buffer hbuffer]
    refine bind_congr_of_yields (hkeep buffer hbuffer) fun moved hmoved => ?_
    rw [ih hmoved]

theorem checkedPacket_eq (hbits : Addressable bits buffer.length)
    (stage : Stage) (direction : Direction) (pid : Pid) :
    host.checkedPacket bits s stage direction pid buffer =
      host.controlPacket s stage direction pid buffer := by
  refine persist_congr (I := fun b => b.length = buffer.length) ?_ ?_ _ rfl
  · intro b hb w
    refine (yields_transfer host s _ b _ w).mono fun moved _ hleaves => ?_
    exact (hleaves.length_eq (Nat.min_le_right _ _)).trans hb
  · intro b hb
    exact checkedTransfer_eq (hb ▸ hbits) _

theorem checkedDataRound_eq {total : Nat} {stage : DataStage}
    (hbits : Addressable bits stage.buffer.length)
    (htotal : total ≤ stage.buffer.length) :
    host.checkedDataRound bits s direction total stage =
      host.dataRound s direction total stage := by
  have hindex := hbits.index
  unfold checkedDataRound dataRound
  by_cases hmore : stage.moved < total
  · obtain ⟨size, hsize⟩ : ∃ size,
        size = min (total - stage.moved) s.ep0MaxPacket.toNat := ⟨_, rfl⟩
    obtain ⟨chunk, hchunk⟩ : ∃ chunk, chunk =
        (stage.buffer.take (stage.moved + size)).drop stage.moved := ⟨_, rfl⟩
    have hpart : stage.moved + size ≤ stage.buffer.length := by omega
    have hlength : chunk.length = size := by
      rw [hchunk, List.length_drop, List.length_take]
      omega
    rw [if_pos hmore, if_pos hmore]
    dsimp only
    rw [difference_eq (Nat.le_of_lt hmore), pure_bind, ← hsize,
      sum_eq (by omega), pure_bind, slice_eq (Nat.le_add_right _ _) hpart,
      pure_bind, pure_bind, ← hchunk,
      checkedPacket_eq (hbits.shorter (by omega))]
    refine bind_congr_of_yields
      (yields_controlPacket_fills .data stage.pid chunk) fun packet hpacket => ?_
    obtain ⟨result, bytes⟩ := packet
    cases result with
    | error e => rfl
    | ok count =>
      have hcount := hpacket.count_le count rfl
      dsimp only
      rw [sum_eq (by omega), pure_bind]
  · rw [if_neg hmore, if_neg hmore]

theorem checkedDataStage_eq {total : Nat}
    (hbits : Addressable bits buffer.length) (htotal : total ≤ buffer.length) :
    host.checkedDataStage bits s direction total buffer =
      host.dataStage s direction total buffer := by
  refine loop_congr (fun stage => stage.buffer.length = buffer.length)
    (fun stage h => faultless_dataRound h htotal) (fun stage h => ?_) rfl
  exact checkedDataRound_eq (h ▸ hbits) (h ▸ htotal)

theorem checkedStatusStage_eq (hbits : 16 ≤ bits) (direction : Direction)
    (count : Nat) :
    host.checkedStatusStage bits s direction count buffer =
      host.statusStage s direction count buffer := by
  unfold checkedStatusStage
  rw [checkedPacket_eq (.of_short hbits (by decide))]
  rfl

/-- A control transfer with all of its checks is the one that runs. -/
theorem checkedControl_eq (hbits : Addressable bits buffer.length)
    (setup : SetupPacket) :
    host.checkedControl bits s setup buffer = host.control s setup buffer := by
  have hsetup : Addressable bits setup.bytes.length := by
    have hlength : setup.bytes.length = 8 := length_littleEndian 8 _
    exact .of_short hbits.width (hlength ▸ by decide)
  unfold checkedControl control
  rw [checkedPacket_eq hsetup]
  refine bind_congr fun sent => ?_
  cases sent.result with
  | error e => rfl
  | ok n =>
    dsimp only
    rw [checkedDataStage_eq hbits (Nat.min_le_right _ _)]
    split
    · refine bind_congr fun moved => ?_
      cases moved.result with
      | error e => rfl
      | ok count => exact checkedStatusStage_eq hbits.width _ _
    · exact checkedStatusStage_eq hbits.width _ _

end Control

end Host

/-! ## Records -/

/-- The first record and what follows it, cut out at the length that the record
gives for itself. -/
def checkedRecord : List Byte → Run ρ σ (Option (Record × List Byte))
  | [] => pure none
  | first :: rest => do
    let bytes := first :: rest
    let size := first.toNat
    if size < 2 ∨ bytes.length < size then
      return none
    let record ← Run.slice bytes 0 size
    let rest ← Run.slice bytes size bytes.length
    let code ← Run.slice record 1 2
    return some (⟨DescriptorType.coding.decode (byteAt code 0), record⟩, rest)

/-- A record that is taken off a configuration lies in it, and is long enough to
tell its kind. -/
theorem checkedRecord_eq (bytes : List Byte) :
    (checkedRecord bytes : Run ρ σ (Option (Record × List Byte))) =
      pure (nextRecord? bytes) := by
  cases bytes with
  | nil => rfl
  | cons first rest =>
    unfold checkedRecord nextRecord?
    dsimp only
    by_cases hsize : 2 ≤ first.toNat ∧ first.toNat ≤ (first :: rest).length
    · have hfits : ¬ (first.toNat < 2 ∨ (first :: rest).length < first.toNat) := by
        omega
      have hcode : byteAt ((((first :: rest).take first.toNat).take 2).drop 1) 0 =
          byteAt (first :: rest) 1 := by
        rw [byteAt, byteAt, List.getElem?_drop, List.take_take,
          List.getElem?_take_of_lt (by omega)]
      have hkind : 2 ≤ ((first :: rest).take first.toNat).length := by
        rw [List.length_take, Nat.min_eq_left hsize.2]
        exact hsize.1
      rw [if_neg hfits, if_pos hsize, slice_eq (Nat.zero_le _) hsize.2,
        pure_bind, List.drop_zero, slice_eq hsize.2 (Nat.le_refl _), pure_bind,
        slice_eq (by decide) hkind, pure_bind, List.take_length, hcode]
    · have hshort : first.toNat < 2 ∨ (first :: rest).length < first.toNat := by
        omega
      rw [if_pos hshort, if_neg hsize]

end UsbHost
