import UsbHost.Proofs.Host.Answers
import UsbHost.Proofs.Host.Polling
import UsbHost.Proofs.Machine.Always

/-!
# What transfers leave untouched

The hardware tells how many bytes have arrived, and in how many packets, and it
may tell anything.  Yet the caller's buffer is written only where data has been
reported: behind that, and after a failure, it is as it was, but for the packets
of a control transfer that had arrived before.  Nor does it matter what an IN
exchange finds in its buffer: nothing of that reaches the bus or the result.

## Main results

* `Run.map_loop` — a function of the result of a loop.
* `Host.transfer_refill` — an IN exchange apart from its buffer.
* `Exchange.Leaves.kept` — what an exchange leaves behind.
* `only_received_written` — exchanges, polls and control transfers.
-/

namespace UsbHost

open Run

variable {ρ σ α β γ ε : Type}

/-! ## Loops -/

/-- What is made of the result of a loop can be made of it in the round that
ends the loop. -/
theorem Run.map_rounds (f : α → γ) (body : β → Run ρ σ (β ⊕ α)) (n : Nat)
    (b : β) :
    rounds n (fun b => Sum.map id f <$> body b) b =
      f <$> rounds n body b := by
  induction n generalizing b with
  | zero => rfl
  | succ n ih =>
    rw [rounds_succ, rounds_succ, bind_map_left, map_bind]
    congr 1
    funext r
    cases r with
    | inl b' => exact ih b'
    | inr a => exact (map_pure f a).symm

theorem Run.map_loop (f : α → γ) (body : β → Run ρ σ (β ⊕ α)) (b : β) :
    f <$> loop body b = loop (fun b => Sum.map id f <$> body b) b := by
  funext patience
  exact (congrFun (map_rounds f body patience b) patience).symm

/-- A function of a result changes nothing but the result. -/
theorem Run.map_run (f : α → γ) (p : Run ρ σ α) (n : Nat) (w : World ρ σ) :
    (f <$> p) n w =
      match p n w with
      | .ok a w' => .ok (f a) w'
      | .error e w' => .error e w' := by
  cases h : p n w <;>
    simp [Functor.map, EStateM.map, h]

/-! ## Exchanges apart from their buffers -/

/-- Puts what has been received at the front of a buffer. -/
def Moved.refill (buffer : List Byte) (moved : Moved ε) : Moved ε :=
  ⟨moved.result, moved.buffer ++ buffer.drop moved.buffer.length⟩

section Refill

variable {host : Host σ} {s : Link} {x : Exchange}

theorem Host.await_refill (hx : x.direction = .toHost) (requested room : Nat)
    (buffer : List Byte) :
    host.await x requested buffer room =
      Moved.refill buffer <$> host.await x requested [] room := by
  unfold Host.await
  rw [map_bind]
  refine bind_congr fun deadline => ?_
  rw [Run.map_loop, hx]
  congr 1
  funext _
  rw [map_bind]
  refine bind_congr fun interrupts => ?_
  cases interrupts.ending? with
  | some ending =>
    cases ending with
    | ok _ =>
      simp only [map_bind, map_pure, List.drop_nil, List.append_nil]
      rfl
    | error e =>
      simp only [map_bind, map_pure]
      rfl
  | none =>
    dsimp only
    rw [map_bind]
    refine bind_congr fun late => ?_
    cases late with
    | false => exact (map_pure _ _).symm
    | true =>
      simp only [if_true, map_bind, map_pure]
      rfl

theorem Host.attempt_refill (hx : x.direction = .toHost) (room : Nat)
    (frame : Half) (buffer : List Byte) :
    host.attempt s x buffer room frame true =
      Moved.refill buffer <$> host.attempt s x [] room frame true := by
  have hreceives : ¬ x.direction = .toDevice := by
    rw [hx]
    exact nofun
  unfold Host.attempt
  rw [if_pos rfl, if_pos rfl, map_bind, ← Host.await_refill hx]
  unfold Host.launch
  simp only [if_neg hreceives]

theorem Host.offer_refill (hx : x.direction = .toHost) (room : Nat)
    (buffer : List Byte) :
    host.offer s x buffer room =
      Moved.refill buffer <$> host.offer s x [] room := by
  have hreceives : ¬(x.direction = .toDevice ∧ 0 < x.requested s room) := by
    rw [hx]
    exact fun h => nomatch h.1
  unfold Host.offer
  simp only [if_neg hreceives, map_bind, pure_bind]
  refine bind_congr fun _ => bind_congr fun frame => bind_congr fun _ => ?_
  exact Host.attempt_refill hx room frame buffer

/-- An IN exchange with room for so many bytes, of which it returns those that
it has received. -/
def Host.receive (host : Host σ) (s : Link) (x : Exchange) (room : Nat) :
    Run Register σ (Moved TransferError) := do
  host.quiesce x.channel
  if x.type = .control then
    host.awaitFrame
  host.offer s x [] room

/-- What an IN exchange does is the same for all buffers with the same room, and
what it has received goes to the front of each. -/
theorem Host.transfer_refill (hx : x.direction = .toHost)
    (buffer : List Byte) (length : Nat) :
    host.transfer s x buffer length =
      Moved.refill buffer <$>
        host.receive s x (min length buffer.length) := by
  rw [host.transfer_eq, Host.receive, map_bind]
  refine bind_congr fun _ => ?_
  dsimp only
  rw [Host.offer_refill hx]
  split
  · exact (map_bind _ _ _).symm
  · rfl

theorem yields_receive (hx : x.direction = .toHost) (room : Nat)
    (w : World Register σ) :
    (host.receive s x room).Yields False w fun moved _ =>
      ∀ count, moved.result = .ok count → moved.buffer.length = count := by
  have hoffer : ∀ w, (host.offer s x [] room).Yields False w fun moved _ =>
      ∀ count, moved.result = .ok count → moved.buffer.length = count := by
    refine fun w => yields_offer.mono fun moved w' h count hr => ?_
    unfold Exchange.Leaves at h
    rw [hr, hx] at h
    obtain ⟨-, received, hlength, hbuffer⟩ := h
    rw [hbuffer, List.drop_nil, List.append_nil, hlength]
  refine .bind_any fun _ w => ?_
  dsimp only
  split
  · exact .bind_any fun _ w => hoffer w
  · exact hoffer w

/-- An IN exchange does the same with two buffers that have the same room, and
what it has received is the same. -/
theorem Host.transfer_same_room (hx : x.direction = .toHost)
    {buffer buffer' : List Byte} {length length' : Nat}
    (hroom : min length buffer.length = min length' buffer'.length)
    (patience : Nat) (w : World Register σ) :
    match host.transfer s x buffer length patience w with
    | .ok moved w' => ∃ received : List Byte,
      (∀ count, moved.result = .ok count → received.length = count) ∧
      moved.buffer = received ++ buffer.drop received.length ∧
      host.transfer s x buffer' length' patience w =
        .ok ⟨moved.result, received ++ buffer'.drop received.length⟩ w'
    | .error e w' =>
      host.transfer s x buffer' length' patience w = .error e w' := by
  rw [Host.transfer_refill hx buffer, Host.transfer_refill hx buffer', ← hroom,
    Run.map_run, Run.map_run]
  cases hrun : host.receive s x (min length buffer.length) patience w with
  | ok moved w' =>
    exact ⟨moved.buffer, (yields_receive hx _ w).of_run hrun, rfl, rfl⟩
  | error e w' => rfl

end Refill

/-! ## Buffers after a transfer -/

/-- A transfer with room for so many bytes has filled its buffer from the front,
no further than there was room, and not at all if it failed. -/
structure Moved.Kept (moved : Moved ε) (room : Nat) (buffer : List Byte) :
    Prop extends moved.Fills buffer where
  within : ∀ count, moved.result = .ok count → count ≤ room
  failed : ∀ e, moved.result = .error e → moved.buffer = buffer

/-- The same under another name for the error, and with more room. -/
theorem Moved.Kept.report {ε' : Type} {moved : Moved ε} {room room' : Nat}
    {buffer : List Byte} (h : moved.Kept room buffer) (hroom : room ≤ room')
    (f : ε → ε') :
    Moved.Kept ⟨moved.result.mapError f, moved.buffer⟩ room' buffer := by
  refine ⟨h.toFills.mapError f, fun count hr => ?_, fun e' hr => ?_⟩
  · cases hmoved : moved.result with
    | ok n =>
      rw [hmoved] at hr
      cases hr
      exact Nat.le_trans (h.within _ hmoved) hroom
    | error e =>
      rw [hmoved] at hr
      exact nomatch hr
  · cases hmoved : moved.result with
    | ok n =>
      rw [hmoved] at hr
      exact nomatch hr
    | error e => exact h.failed e hmoved

section Buffers

variable {host : Host σ} {s : Link} {x : Exchange} {buffer : List Byte}
  {room : Nat}

/-- What an exchange leaves behind. -/
theorem Exchange.Leaves.kept {moved : Moved TransferError}
    (h : x.Leaves (x.requested s room) room buffer moved)
    (hroom : room ≤ buffer.length) :
    moved.Kept room buffer ∧
      (x.direction = .toDevice → moved.buffer = buffer) := by
  have hsent : x.direction = .toDevice → x.requested s room ≤ room :=
    fun hx => x.requested_le s hx
  refine ⟨⟨h.fills hroom fun hx => Nat.le_trans (hsent hx) hroom, ?_, ?_⟩, ?_⟩
  · intro count hr
    obtain ⟨hout, hin⟩ := h.count_eq hr
    cases hx : x.direction with
    | toDevice => exact (hout hx).symm ▸ hsent hx
    | toHost => exact hin hx
  · intro e hr
    unfold Exchange.Leaves at h
    rw [hr] at h
    exact h
  · intro hx
    unfold Exchange.Leaves at h
    split at h
    · exact h
    · exact h.2
    next hin => exact nomatch hx.symm.trans hin

theorem yields_transfer_kept (host : Host σ) (s : Link) (x : Exchange)
    (buffer : List Byte) (length : Nat) (w : World Register σ) :
    (host.transfer s x buffer length).Yields False w fun moved _ =>
      moved.Kept (min length buffer.length) buffer ∧
        (x.direction = .toDevice → moved.buffer = buffer) :=
  (yields_transfer host s x buffer length w).mono
    fun _ _ h => h.kept (Nat.min_le_right _ _)

/-- A poll reports no more than a packet of its endpoint. -/
theorem yields_readReport_kept (host : Host σ) (s : Link) (report : List Byte)
    (w : World Register σ) :
    ((host.readReport report).run s).Yields False w fun r _ =>
      r.1.Kept report.length report ∧
        ∀ count, r.1.result = .ok count →
          ∃ hid, s.pollable? = some hid ∧ count ≤ hid.maxPacketSize.toNat := by
  rw [Host.run_readReport]
  cases hs : s.pollable? with
  | none =>
    refine .pure ⟨⟨.of_error rfl rfl, fun _ => nofun, fun _ _ => rfl⟩,
      fun _ => nofun⟩
  | some hid =>
    refine (yields_transfer_kept host s _ report _ w).bind fun moved w' h => ?_
    obtain ⟨hkept, -⟩ := h
    have hroom : min (min report.length hid.maxPacketSize.toNat)
        report.length ≤ report.length := Nat.min_le_right _ _
    have hreport := hkept.report hroom (UsbError.transfer .interrupt)
    obtain ⟨result, bytes⟩ := moved
    cases result with
    | ok count =>
      refine .pure ⟨hreport, fun n hn => ⟨hid, rfl, ?_⟩⟩
      have hwithin := hkept.within n (by cases hn; rfl)
      omega
    | error e => exact .pure ⟨hreport, fun _ => nofun⟩

end Buffers

/-! ## Every transfer -/

/-- On whatever hardware the caller's buffer is written only where data has been
reported.  An exchange and a poll leave the bytes behind what they report as
they were, and everything if they fail; what is sent is never changed.  So does
a control transfer, but that it keeps the bytes of the packets that had arrived
when it failed.  And an IN exchange does the same, with the same result, for all
buffers with the same room. -/
theorem only_received_written (host : Host σ) (s : Link) :
    (∀ x buffer length w,
      (host.transfer s x buffer length).Yields False w fun moved _ =>
        moved.Kept (min length buffer.length) buffer ∧
          (x.direction = .toDevice → moved.buffer = buffer)) ∧
    (∀ report w, ((host.readReport report).run s).Yields False w fun r _ =>
      r.1.Kept report.length report ∧
        ∀ count, r.1.result = .ok count →
          ∃ hid, s.pollable? = some hid ∧ count ≤ hid.maxPacketSize.toNat) ∧
    (∀ setup buffer w,
      (host.control s setup buffer).Yields False w fun moved w' =>
        let total := min (SetupPacket.length.get setup).toNat buffer.length
        (∀ count, moved.result = .ok count → count ≤ total ∧
          moved.buffer.drop count = buffer.drop count) ∧
        ∃ steps, Protocol.controlTransfer host.settings.nakRetryLimit
            s.ep0MaxPacket.toNat setup buffer steps moved.result ∧
          Protocol.Taken host s steps w w' ∧
          Protocol.Receives (SetupPacket.direction.get setup) total buffer steps
            moved) ∧
    (∀ (x : Exchange) (buffer buffer' : List Byte) (length length' : Nat),
      x.direction = .toHost →
      min length buffer.length = min length' buffer'.length →
      ∀ patience w,
        match host.transfer s x buffer length patience w with
        | .ok moved w' => ∃ received : List Byte,
          (∀ count, moved.result = .ok count → received.length = count) ∧
          moved.buffer = received ++ buffer.drop received.length ∧
          host.transfer s x buffer' length' patience w =
            .ok ⟨moved.result, received ++ buffer'.drop received.length⟩ w'
        | .error e w' =>
          host.transfer s x buffer' length' patience w = .error e w') := by
  refine ⟨yields_transfer_kept host s, yields_readReport_kept host s, ?_, ?_⟩
  · intro setup buffer w
    refine (Protocol.yields_control_received setup buffer w).mono ?_
    rintro moved w' ⟨steps, hcourse, htaken, hreceives⟩
    refine ⟨fun count hr => ⟨?_, hreceives.rest hr⟩, steps, hcourse, htaken,
      hreceives⟩
    rw [hr] at hcourse
    exact Protocol.controlTransfer_count_le hcourse
  · intro x buffer buffer' length length' hx hroom patience w
    exact Host.transfer_same_room hx hroom patience w

/-- A core on which every exchange succeeds and each channel-1 packet has three
bytes.  Its state is the number of packets in the receive FIFO. -/
def delivering : Core Nat where
  bus :=
    { read := fun r n =>
        match r with
        | .interruptStatus =>
          (if n = 0 then 0 else CoreInterrupts.rxFifoLevel.bits, n)
        | .rxStatusPop => (0x40031, n - 1)
        | .fifo _ => (0x04030201, n)
        | .channel _ .interrupts =>
          (ChannelInterrupts.transferComplete.bits, n)
        | _ => (0, n)
      write := fun _ _ n => n }
  clock := { now := fun n => (.zero, n) }

/-- What is received into zeros is received into any other eight bytes: the
first three are written, the others are as they were. -/
theorem three_bytes_written :
    let x : Exchange := ⟨.interrupt, 1, .toHost, .interrupt, .data0⟩
    let host : Host Nat := ⟨delivering, {}⟩
    ∃ w', host.transfer {} x (List.replicate 8 0xAA) 8 4 ⟨1, []⟩ =
      .ok ⟨.ok 3, [1, 2, 3] ++ List.replicate 5 0xAA⟩ w' := by
  intro x host
  obtain ⟨-, -, -, hsame⟩ := only_received_written host {}
  have hreturns : (host.transfer {} x (List.replicate 8 0) 8).returns 4 ⟨1, []⟩
      (fun moved _ => decide (moved.result = .ok 3 ∧
        moved.buffer = [1, 2, 3] ++ List.replicate 5 0)) = true := by
    decide +kernel
  obtain ⟨moved, w', hrun, h⟩ := exists_of_returns hreturns
  obtain ⟨hresult, hbuffer⟩ := of_decide_eq_true h
  have hother := hsame x (List.replicate 8 0) (List.replicate 8 0xAA) 8 8 rfl
    rfl 4 ⟨1, []⟩
  rw [hrun] at hother
  obtain ⟨received, hlength, hfront, hother⟩ := hother
  have hthree : received.length = 3 := hlength 3 hresult
  have hreceived : received = [1, 2, 3] := by
    rw [hbuffer, hthree] at hfront
    exact (List.append_inj hfront (by rw [hthree]; rfl)).1.symm
  rw [hresult, hreceived] at hother
  exact ⟨w', hother⟩

end UsbHost
