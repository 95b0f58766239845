import UsbHost.Proofs.Host.Buffers
import UsbHost.Proofs.Simulation.ReceiveQueue

/-!
# An exchange on the simulated core

Which transaction the driver's exchange of a packet puts on the bus of the
simulated core, and what becomes of it.  Everything is said about a pure
function, `outcome`, and one theorem ties the driver to it.

## Main results

* `programmed_characteristics` — the channel is programmed for just the
  transaction that the exchange stands for.
* `leads_push` — the words of an OUT packet arrive as the packet.
* `leads_transfer` — an exchange comes out as `outcome` says, and its channel
  is at rest again.
-/

namespace UsbHost

open Simulation

/-! ## Transactions -/

/-- The transaction of an exchange with room for `room` bytes, without its
data. -/
def Exchange.header (x : Exchange) (s : Link) (room : Nat) : Transaction where
  channel := x.channel
  address := s.address.setWidth 7
  endpoint := x.endpoint.setWidth 4
  direction := x.direction
  type := x.type
  pid := x.pid
  maxPacket := (s.packetSizeOf x.endpoint).setWidth 11
  lowSpeed := s.speed = .low
  requested := x.requested s room
  data := []

/-- The transaction of an exchange that is offered the first `room` bytes of a
buffer. -/
def Exchange.transaction (x : Exchange) (s : Link) (buffer : List Byte)
    (room : Nat) : Transaction :=
  { x.header s room with
    data :=
      if x.direction = .toDevice then buffer.take (x.requested s room)
      else [] }

/-- Whether an exchange has to wait for room in the transmit FIFO. -/
def Exchange.Sends (x : Exchange) (s : Link) (room : Nat) : Prop :=
  x.direction = .toDevice ∧ 0 < x.requested s room

instance (x : Exchange) (s : Link) (room : Nat) : Decidable (x.Sends s room) :=
  inferInstanceAs (Decidable (_ ∧ _))

theorem Exchange.transaction_of_not_sends {x : Exchange} {s : Link}
    {room : Nat} (h : ¬ x.Sends s room) (buffer : List Byte) :
    x.transaction s buffer room = x.header s room := by
  unfold Exchange.transaction Exchange.header
  split
  next hout =>
    have hzero : x.requested s room = 0 :=
      Nat.eq_zero_of_not_pos fun hpos => h ⟨hout, hpos⟩
    rw [hzero, List.take_zero]
  next => rfl

namespace Simulation

/-- What the device answers to an exchange. -/
def Controller.answer (k : Controller) (t : Transaction) : Response :=
  (k.device.respond t).1

/-- The controller after a transaction, its channel apart: the device has seen
it, and what the device has sent waits in the receive queue. -/
def Controller.carried (k : Controller) (t : Transaction) : Controller :=
  let device := (k.device.respond t).2
  match k.answer t, t.direction with
  | .ack data, .toHost =>
    let channel := BitVec.ofNat 4 t.channel.val
    { k with
      device
      rxStatus := k.rxStatus ++ [queueEntry channel data.length .inData,
        queueEntry channel 0 .inTransferComplete]
      rxFifo := k.rxFifo ++ packetWords data
      transactions := { t with data } :: k.transactions }
  | _, _ => { k with device, transactions := t :: k.transactions }

/-- The controller after a packet has been sent or asked for: no OUT packet
waits for its words any more. -/
def Controller.sent (k : Controller) (t : Transaction) : Controller :=
  if t.direction = .toDevice ∧ 0 < t.requested then
    { k with pendingOut := none }.carried t
  else k.carried t

/-- A channel after the response to its transaction. -/
def ChannelState.answered (s : ChannelState) (r : Response) : ChannelState :=
  { s with
    enabled := Controller.staysBusy r
    interrupts := s.interrupts ||| (Controller.raised r).bits }

/-! ## Outcomes -/

/-- How a response ends the exchange. -/
def Response.ending : Response → Except TransferError Unit
  | .ack _ => .ok ()
  | .nak => .error .nak
  | .stall => .error .stall
  | .error | .halted => .error .error
  | .silent => .error .timeout

/-- What an exchange comes to once its response is there: the result with the
buffer, and the controller with its receive queue drained if need be. -/
def Controller.settled (k : Controller) (x : Exchange) (r : Response)
    (requested : Nat) (buffer : List Byte) (room : Nat) :
    Moved TransferError × Controller :=
  match r.ending, x.direction with
  | .error e, _ => (⟨.error e, buffer⟩, k)
  | .ok _, .toDevice => (⟨.ok requested, buffer⟩, k)
  | .ok _, .toHost =>
    let (received, words) := drained x.channel room k.rxStatus k.rxFifo []
    (⟨.ok received.length, received ++ buffer.drop received.length⟩,
      k.withQueue [] words)

/-- Free words of the transmit FIFO. -/
def Controller.txSpace (k : Controller) : Nat :=
  (NpTxStatus.spaceAvailable.get ⟨k.npTxStatus⟩).toNat

/-- Whether there is no room for the packet of an exchange. -/
def Controller.Starved (k : Controller) (x : Exchange) (s : Link)
    (room : Nat) : Prop :=
  x.Sends s room ∧ k.txSpace < wordCount (x.requested s room)

instance (k : Controller) (x : Exchange) (s : Link) (room : Nat) :
    Decidable (k.Starved x s room) :=
  inferInstanceAs (Decidable (_ ∧ _))

/-- What an exchange with room for `room` bytes comes to. -/
def Controller.outcome (k : Controller) (s : Link) (x : Exchange)
    (buffer : List Byte) (room : Nat) : Moved TransferError × Controller :=
  let t := x.transaction s buffer room
  if k.Starved x s room then (⟨.error .error, buffer⟩, k)
  else (k.sent t).settled x (k.answer t) (x.requested s room) buffer room

/-! ## Controllers that differ in one channel -/

/-- `k'` is `k` with channel `c` in the state `s`, after some accesses. -/
def Beside (c : Channel) (s : ChannelState) (k k' : Controller) : Prop :=
  ∃ writes frame,
    k' = { k with
      channels := (k.updateChannel c fun _ => s).channels, writes, frame }

/-- `k'` is `k` with channel `c` at rest, after some accesses. -/
def Rests (c : Channel) (k k' : Controller) : Prop :=
  ∃ s, s.enabled = false ∧ s.interrupts = 0 ∧ Beside c s k k'

namespace Beside

variable {c : Channel} {s : ChannelState} {k k' : Controller}

theorem refl (c : Channel) (k : Controller) : Beside c (k.channel c) k k :=
  ⟨k.writes, k.frame, by simp [Controller.updateChannel, Controller.channel]⟩

theorem channel_eq (h : Beside c s k k') : k'.channel c = s := by
  obtain ⟨writes, frame, rfl⟩ := h
  exact k.channel_updateChannel_self c fun _ => s

theorem channel_of_ne (h : Beside c s k k') {d : Channel} (hd : d ≠ c) :
    k'.channel d = k.channel d := by
  obtain ⟨writes, frame, rfl⟩ := h
  exact k.channel_updateChannel_of_ne hd fun _ => s

theorem counted (h : Beside c s k k') (writes : Nat) :
    Beside c s k { k' with writes } := by
  obtain ⟨-, frame, rfl⟩ := h
  exact ⟨writes, frame, rfl⟩

theorem updateChannel (h : Beside c s k k')
    (f : ChannelState → ChannelState) :
    Beside c (f s) k (k'.updateChannel c f) := by
  obtain ⟨writes, frame, rfl⟩ := h
  exact ⟨writes, frame, by
    simp [Controller.updateChannel, Controller.channel]⟩

theorem waiting (h : Beside c s k k') (pendingOut : Option PendingOut) :
    Beside c s { k with pendingOut } { k' with pendingOut } := by
  obtain ⟨writes, frame, rfl⟩ := h
  exact ⟨writes, frame, rfl⟩

theorem framed (h : Beside c s k k') (frame : Word) :
    Beside c s k { k' with frame } := by
  obtain ⟨writes, -, rfl⟩ := h
  exact ⟨writes, frame, rfl⟩

theorem txSpace_eq (h : Beside c s k k') : k'.txSpace = k.txSpace := by
  obtain ⟨writes, frame, rfl⟩ := h
  rfl

theorem pendingOut_eq (h : Beside c s k k') :
    k'.pendingOut = k.pendingOut := by
  obtain ⟨writes, frame, rfl⟩ := h
  rfl

/-- A disabled channel is at rest once its interrupts are cleared. -/
theorem cleared (h : Beside c s k k') (hs : s.enabled = false) :
    Rests c k (k'.write (.channel c .interrupts) (BitVec.allOnes 32)) := by
  refine ⟨_, ?_, ?_, (h.counted (k'.writes + 1)).updateChannel fun s =>
    { s with interrupts := s.interrupts &&& ~~~(BitVec.allOnes 32) }⟩
  · exact hs
  · simp

/-- Disabling a running channel halts it. -/
theorem disabled (h : Beside c s k k') (hs : s.enabled = true)
    (chars : ChannelCharacteristics) :
    ∃ s' : ChannelState, s'.enabled = false ∧
      s'.interrupts = s.interrupts ||| ChannelInterrupts.halted.bits ∧
      Beside c s' k (k'.write (.channel c .characteristics)
        (ChannelCharacteristics.disable.set true chars).raw) := by
  have hdisable : ChannelCharacteristics.disable.get
      (ChannelCharacteristics.disable.set true chars) = true :=
    BitField.get_set _ _ _
  have hk := (h.counted (k'.writes + 1)).updateChannel fun s =>
    { s with
      interrupts :=
        if s.enabled then s.interrupts ||| ChannelInterrupts.halted.bits
        else s.interrupts
      enabled := false
      characteristics :=
        (ChannelCharacteristics.enable.set false
          (ChannelCharacteristics.disable.set false
            (ChannelCharacteristics.disable.set true chars))).raw }
  simp only [Controller.write, Controller.writeChannel]
  rw [if_pos hdisable]
  refine ⟨_, ?_, ?_, hk⟩
  · rfl
  · exact if_pos hs

/-- A transaction on the channel. -/
theorem execute (h : Beside c s k k') {t : Transaction}
    (hc : t.channel = c) :
    Beside c (s.answered (k.answer t)) (k.carried t) (k'.execute t) := by
  obtain ⟨writes, frame, rfl⟩ := h
  subst hc
  refine ⟨writes, frame, ?_⟩
  simp only [Controller.execute, Controller.carried, Controller.answer,
    Controller.updateChannel, Controller.channel, ChannelState.answered]
  cases (k.device.respond t).1 <;> cases t.direction <;>
    simp [Controller.queuePacket, Controller.queueCompletion]

end Beside

/-! ## Programming the channel -/

section Launch

variable {τ : Type} {T : Prop} {clock : Clock τ} {settings : Settings}
  {x : Exchange} {link : Link} {room : Nat}
  {s : ChannelState} {k k' : Controller}

/-- The channel is programmed for just the transaction that the exchange
stands for, without its data. -/
theorem programmed_characteristics (oddFrame : Bool)
    (hsize : (k.channel x.channel).size =
      (x.transferSize (BitVec.ofNat 19 (x.requested link room))).raw) :
    k.programmed x.channel (ChannelCharacteristics.enable.set true
        (x.characteristics link oddFrame)) =
      x.header link room := by
  obtain ⟨-, -, haddress, hendpoint, hdirection, htype, hpacket, hspeed⟩ :=
    characteristics_fields x link oddFrame
  obtain ⟨hpid, hbytes⟩ :=
    transferSize_fields x (x.toNat_requested link room)
  simp only [Controller.programmed, Exchange.header, haddress, hendpoint,
    hdirection, htype, hpacket, hspeed, hsize, hpid, hbytes]

/-- Enabling the channel: a packet with data is waited for, any other one goes
out at once. -/
theorem Beside.enabled (h : Beside x.channel s k k') (oddFrame : Bool)
    (hsize : s.size =
      (x.transferSize (BitVec.ofNat 19 (x.requested link room))).raw) :
    ∃ s', s'.interrupts = s.interrupts ∧
      let k'' := k'.write (.channel x.channel .characteristics)
        (ChannelCharacteristics.enable.set true
          (x.characteristics link oddFrame)).raw
      if x.Sends link room then
        Beside x.channel s'
          { k with pendingOut := some ⟨x.header link room, []⟩ } k''
      else
        Beside x.channel (s'.answered (k.answer (x.header link room)))
          (k.carried (x.header link room)) k'' := by
  obtain ⟨henable, hdisable, -⟩ := characteristics_fields x link oddFrame
  obtain ⟨chars, hchars⟩ : ∃ chars, ChannelCharacteristics.enable.set true
      (x.characteristics link oddFrame) = chars := ⟨_, rfl⟩
  let kept := (ChannelCharacteristics.enable.set false
    (ChannelCharacteristics.disable.set false chars)).raw
  let k₁ := { k' with writes := k'.writes + 1 }.updateChannel x.channel
    ({ · with characteristics := kept })
  have hk₁ : Beside x.channel { s with characteristics := kept } k k₁ :=
    (h.counted _).updateChannel _
  have ht : k₁.programmed x.channel chars = x.header link room := by
    rw [← hchars]
    refine programmed_characteristics oddFrame ?_
    rw [hk₁.channel_eq]
    exact hsize
  have hk₂ := hk₁.updateChannel ({ · with enabled := true })
  simp only [hchars] at henable hdisable ⊢
  have hwrite : k'.write (.channel x.channel .characteristics) chars.raw =
      k₁.enable x.channel chars := by
    simp only [Controller.write, Controller.writeChannel]
    rw [if_neg (by simpa using hdisable), if_pos henable]
  refine ⟨{ s with characteristics := kept, enabled := true }, rfl, ?_⟩
  have hsends : ((x.header link room).direction = .toDevice ∧
      0 < (x.header link room).requested) = x.Sends link room := rfl
  simp only [hwrite, Controller.enable, ht, hsends]
  split
  · obtain ⟨writes, frame, hk₂⟩ := hk₂
    rw [hk₂]
    exact ⟨writes, frame, rfl⟩
  · exact hk₂.execute rfl

/-! ## Sending the words -/

/-- The transaction of an OUT packet once its words are there. -/
def sentWith (t : Transaction) (words : List Word) : Transaction :=
  { t with data := (words.flatMap wordBytes).take t.requested }

theorem pushWord_of_waiting {t : Transaction} {words : List Word}
    (h : k.pendingOut = some ⟨t, words⟩) (word : Word) :
    k.pushWord t.channel word =
      if (words ++ [word]).length < wordCount t.requested then
        { k with pendingOut := some ⟨t, words ++ [word]⟩ }
      else { k with pendingOut := none }.execute
        (sentWith t (words ++ [word])) := by
  simp only [Controller.pushWord, h, if_true, sentWith]

/-- A word for the waiting OUT packet is kept, or sends the packet if it is the
last one. -/
theorem Beside.pushed {t : Transaction} {words : List Word}
    (h : Beside t.channel s { k with pendingOut := some ⟨t, words⟩ } k')
    (word : Word) :
    if (words ++ [word]).length < wordCount t.requested then
      Beside t.channel s { k with pendingOut := some ⟨t, words ++ [word]⟩ }
        (k'.write (.fifo t.channel) word)
    else
      Beside t.channel
        (s.answered (k.answer (sentWith t (words ++ [word]))))
        ({ k with pendingOut := none }.carried (sentWith t (words ++ [word])))
        (k'.write (.fifo t.channel) word) := by
  have hk' := h.counted (k'.writes + 1)
  have hwrite := pushWord_of_waiting hk'.pendingOut_eq word
  change k'.write (.fifo t.channel) word = _ at hwrite
  rw [hwrite]
  split
  · exact hk'.waiting _
  · exact (hk'.waiting none).execute rfl

/-- Pushing the words that are missing from an OUT packet sends it. -/
theorem leads_push {t : Transaction} {pushed words : List Word}
    {Q : Unit → Controller → Prop}
    (hk : Beside t.channel s { k with pendingOut := some ⟨t, pushed⟩ } k')
    (hlength : pushed.length + words.length = wordCount t.requested)
    (hne : words ≠ [])
    (hQ : ∀ k'', Beside t.channel
      (s.answered (k.answer (sentWith t (pushed ++ words))))
      ({ k with pendingOut := none }.carried (sentWith t (pushed ++ words)))
      k'' → Q () k'') :
    Leads T
      (words.forM ((hostOn clock settings).core.store (.fifo t.channel))) k'
      Q := by
  induction words generalizing pushed k' with
  | nil => exact absurd rfl hne
  | cons word rest ih =>
    have hword := hk.pushed word
    refine leads_store_bind rfl ?_
    cases rest with
    | nil =>
      have hfull : ¬ (pushed ++ [word]).length < wordCount t.requested := by
        rw [List.length_append, ← hlength]
        exact Nat.lt_irrefl _
      rw [if_neg hfull] at hword
      exact .pure (hQ _ hword)
    | cons next rest =>
      have hmore : (pushed ++ [word]).length < wordCount t.requested := by
        simp only [List.length_append, List.length_cons, List.length_nil]
          at hlength ⊢
        omega
      rw [if_pos hmore] at hword
      refine ih hword ?_ (List.cons_ne_nil _ _) ?_
      · rw [← hlength, List.length_append]
        simp only [List.length_cons, List.length_nil]
        omega
      · simpa only [List.append_assoc, List.singleton_append] using hQ

/-- The words of an OUT packet are as many as its channel waits for, and make up
its transaction. -/
theorem sentWith_packetWords {buffer : List Byte} (hsends : x.Sends link room)
    (hroom : room ≤ buffer.length) :
    let words := packetWords (buffer.take (x.requested link room))
    words.length = wordCount (x.requested link room) ∧
      sentWith (x.header link room) words = x.transaction link buffer room := by
  intro words
  have hle : x.requested link room ≤ buffer.length :=
    Nat.le_trans (x.requested_le link hsends.1) hroom
  have hlength : (buffer.take (x.requested link room)).length =
      x.requested link room := by
    rw [List.length_take, Nat.min_eq_left hle]
  have hdata := take_flatMap_packetWords (buffer.take (x.requested link room))
  rw [hlength] at hdata
  constructor
  · rw [length_packetWords, hlength]
  · simp only [words, sentWith, Exchange.transaction, Exchange.header, hdata,
      if_pos hsends.1]

/-- Launching an exchange puts its transaction on the bus. -/
theorem leads_launch {buffer : List Byte} {oddFrame : Bool}
    {Q : Unit → Controller → Prop} (hk : Beside x.channel s k k')
    (hroom : room ≤ buffer.length)
    (hQ : ∀ (s' : ChannelState) k'', s'.interrupts = s.interrupts →
      Beside x.channel
        (s'.answered (k.answer (x.transaction link buffer room)))
        (k.sent (x.transaction link buffer room)) k'' → Q () k'') :
    Leads T ((hostOn clock settings).launch x
      (x.characteristics link oddFrame) (x.requested link room) buffer) k'
      Q := by
  unfold Host.launch
  rw [Run.narrow_eq (x.toNat_requested link room), pure_bind]
  refine leads_store_bind rfl ?_
  have hk₁ := (hk.counted (k'.writes + 1)).updateChannel ({ · with
    size := (x.transferSize (BitVec.ofNat 19 (x.requested link room))).raw })
  obtain ⟨s', hs', hk₂⟩ := hk₁.enabled oddFrame rfl
  refine (leads_barrier (Q := fun _ k'' => k'' = _) rfl).bind ?_
  rintro - _ rfl
  refine leads_store_bind rfl ?_
  refine (leads_barrier (Q := fun _ k'' => k'' = _) rfl).bind ?_
  rintro - _ rfl
  by_cases hsends : x.Sends link room
  · have hle : x.requested link room ≤ buffer.length :=
      Nat.le_trans (x.requested_le link hsends.1) hroom
    obtain ⟨hwords, ht⟩ := sentWith_packetWords hsends hroom
    rw [if_pos hsends] at hk₂
    rw [if_pos hsends.1, Run.slice_eq (Nat.zero_le _) hle, pure_bind,
      List.drop_zero]
    have hsent : k.sent (x.transaction link buffer room) =
        { k with pendingOut := none }.carried
          (x.transaction link buffer room) := if_pos hsends
    refine leads_push hk₂ ?_ ?_ fun k'' hk'' => hQ s' k'' hs' ?_
    · rw [hwords]
      exact Nat.zero_add _
    · refine List.ne_nil_of_length_pos ?_
      rw [hwords, wordCount]
      have hpos := hsends.2
      omega
    · rw [List.nil_append, ht] at hk''
      rw [hsent]
      exact hk''
  · have ht := Exchange.transaction_of_not_sends hsends buffer
    have hsent : k.sent (x.transaction link buffer room) =
        k.carried (x.header link room) := by
      rw [ht]
      exact if_neg hsends
    rw [if_neg hsends] at hk₂
    have hdone := hQ s' _ hs' (by rw [hsent, ht]; exact hk₂)
    split
    next hout =>
      have hzero : x.requested link room = 0 :=
        Nat.eq_zero_of_not_pos fun hpos => hsends ⟨hout, hpos⟩
      have hnone : (buffer.take (x.requested link room)).drop 0 = [] := by
        rw [hzero]
        rfl
      rw [Run.slice_eq (Nat.zero_le _) (by omega), pure_bind, hnone]
      exact .pure hdone
    next => exact .pure hdone

end Launch

/-! ## Resting -/

/-- Flags that were just added are contained. -/
theorem contains_truncate_or {n : Nat} {known : BitVec n} (v : BitVec n)
    (t : FlagSet known) :
    (FlagSet.truncate (v ||| t.bits) : FlagSet known).contains t = true := by
  rw [FlagSet.contains, beq_iff_eq, FlagSet.bits_truncate, BitVec.and_assoc,
    BitVec.and_comm known, t.bits_and_known]
  apply BitVec.eq_of_getLsbD_eq
  intro i _
  rw [BitVec.getLsbD_and, BitVec.getLsbD_or]
  cases v.getLsbD i <;> cases t.bits.getLsbD i <;> rfl

section Resting

variable {τ : Type} {T : Prop} {clock : Clock τ} {settings : Settings}
  {c : Channel} {s : ChannelState} {k k' : Controller}

theorem Beside.read_channel (h : Beside c s k k') :
    k'.read (.channel c .characteristics) =
        ((ChannelCharacteristics.enable.set s.enabled
          ⟨s.characteristics⟩).raw, k') ∧
      k'.read (.channel c .interrupts) = (s.interrupts, k') := by
  simp only [Controller.read, Controller.readChannel, h.channel_eq, and_self]

/-- Whatever it was doing, a channel that is quiesced is at rest. -/
theorem leads_quiesce {Q : Unit → Controller → Prop}
    (hk : Beside c s k k') (hQ : ∀ k'', Rests c k k'' → Q () k'') :
    Leads T ((hostOn clock settings).quiesce c) k' Q := by
  refine leads_load_bind hk.read_channel.1 ?_
  have henable : ChannelCharacteristics.enable.get
      (Register.decode (.channel c .characteristics)
        (ChannelCharacteristics.enable.set s.enabled
          ⟨s.characteristics⟩).raw) = s.enabled :=
    BitField.get_set _ _ _
  rw [henable]
  cases hs : s.enabled with
  | false => exact leads_storeOnes (hQ _ (hk.cleared hs))
  | true =>
    obtain ⟨s', henabled, hhalted, hk'⟩ := hk.disabled hs _
    refine leads_store_bind rfl ?_
    refine (leads_waitUntil (c := true)
      (Q := fun _ k'' => Beside c s' k k'') ?_ (fun _ => rfl) hk').bind ?_
    · refine leads_load_bind hk'.read_channel.2 (.pure ⟨?_, rfl⟩)
      rw [hhalted]
      exact contains_truncate_or _ _
    · rintro - k'' hk''
      exact leads_storeOnes (hQ _ (hk''.cleared henabled))

/-! ## Waiting -/

/-- Waiting for a frame only takes accesses. -/
theorem leads_awaitFrame {Q : Unit → Controller → Prop}
    (hk : Beside c s k k') (hQ : ∀ k'', Beside c s k k'' → Q () k'') :
    Leads T (hostOn clock settings).awaitFrame k' Q := by
  have hframe : ∀ k : Controller,
      (Register.interruptStatus.decode k.interruptStatus.bits).contains
        CoreInterrupts.startOfFrame = true := by
    intro k
    simp only [Controller.interruptStatus, Register.decode]
    cases k.rxStatus.isEmpty <;> cases k.inHostMode <;> rfl
  refine leads_store_bind rfl ?_
  refine (leads_waitUntil (c := true)
    (Q := fun _ k'' => Beside c s k k'') ?_ (fun _ => rfl)
    (hk.counted _)).bind ?_
  · exact leads_load_bind (read_interruptStatus _) (.pure ⟨hframe _, rfl⟩)
  · rintro - k'' hk''
    exact leads_store (hQ _ (hk''.counted _))

/-- Whether there is room in the transmit FIFO is known at once. -/
theorem leads_awaitTxSpace {words space : Nat} {Q : Bool → Controller → Prop}
    (hspace : k.txSpace = space) (hT : T → words ≤ space)
    (hQ : Q (words ≤ space) k) :
    Leads T ((hostOn clock settings).awaitTxSpace words) k Q := by
  subst hspace
  exact leads_waitUntil (c := decide (words ≤ k.txSpace))
    (leads_load_bind rfl (.pure ⟨rfl, rfl⟩)) (fun ht => by simp [hT ht]) hQ

end Resting

/-! ## The exchange -/

/-- What a channel's interrupts say after the response. -/
theorem ending?_raised (r : Response) :
    ChannelInterrupts.ending? (.truncate (Controller.raised r).bits) =
      if r = .silent then none else some r.ending := by
  cases r with
  | ack data =>
    -- The data is no part of what is raised, but would keep it from evaluating.
    have hraised : Controller.raised (.ack data) =
        Controller.raised (.ack []) := rfl
    rw [if_neg nofun, hraised]
    rfl
  | _ => rfl

section Exchanging

variable {τ : Type} {T : Prop} {clock : Clock τ} {settings : Settings}
  {x : Exchange} {link : Link} {buffer : List Byte} {room : Nat}
  {s : ChannelState} {k k' : Controller}

theorem Beside.withQueue {c : Channel} (h : Beside c s k k')
    (entries words : List Word) :
    Beside c s (k.withQueue entries words) (k'.withQueue entries words) := by
  obtain ⟨writes, frame, rfl⟩ := h
  exact ⟨writes, frame, rfl⟩

theorem Beside.queue_eq {c : Channel} (h : Beside c s k k') :
    k' = k'.withQueue k.rxStatus k.rxFifo := by
  obtain ⟨writes, frame, rfl⟩ := h
  rfl

/-- Watching a channel that has its response settles the exchange. -/
theorem leads_await {requested : Nat} {r : Response}
    {Q : Moved TransferError → Controller → Prop}
    (hk : Beside x.channel s k k') (hs : s.enabled = Controller.staysBusy r)
    (hi : s.interrupts = (Controller.raised r).bits) (hT : T → r ≠ .silent)
    (hQ : ∀ k'', Rests x.channel (k.settled x r requested buffer room).2 k'' →
      Q (k.settled x r requested buffer room).1 k'') :
    Leads T ((hostOn clock settings).await x requested buffer room) k' Q := by
  refine (leads_deadlineAfter (Q := fun _ v => k' = v) fun _ => rfl).bind ?_
  rintro deadline _ rfl
  refine .loop (fun _ v => k' = v) (fun _ _ => 0) ?_ rfl
  rintro - _ rfl
  refine leads_load_bind hk.read_channel.2 ?_
  have hending : ChannelInterrupts.ending?
      (Register.decode (.channel x.channel .interrupts) s.interrupts) =
        if r = .silent then none else some r.ending := by
    rw [hi]
    exact ending?_raised r
  rw [hending]
  by_cases hsilent : r = .silent
  · -- Nothing is said in time, so the channel is given up.
    subst hsilent
    rw [if_pos rfl]
    refine (leads_expired (Q := fun _ v => k' = v) fun _ => rfl).bind ?_
    rintro e _ rfl
    cases e with
    | false => exact .pure ⟨rfl, fun ht => absurd rfl (hT ht)⟩
    | true =>
      refine (leads_quiesce (Q := fun _ v => Rests x.channel k v) hk
        fun _ hv => hv).bind ?_
      rintro - v hv
      exact .pure (hQ v hv)
  · rw [if_neg hsilent]
    have hrest : s.enabled = false := by
      rw [hs, Controller.staysBusy, decide_eq_false hsilent]
    unfold Controller.settled at hQ
    cases hr : r.ending with
    | error e =>
      rw [hr] at hQ
      refine leads_storeOnes_bind rfl (.pure ?_)
      exact hQ _ (hk.cleared hrest)
    | ok u =>
      rw [hr] at hQ
      cases hx : x.direction with
      | toDevice =>
        rw [hx] at hQ
        refine leads_storeOnes_bind rfl (.pure ?_)
        exact hQ _ (hk.cleared hrest)
      | toHost =>
        rw [hx] at hQ
        rw [hk.queue_eq]
        refine (leads_drain (Q := fun received v =>
          received = (drained x.channel room k.rxStatus k.rxFifo []).1 ∧
          v = k'.withQueue []
            (drained x.channel room k.rxStatus k.rxFifo []).2)
          ⟨rfl, rfl⟩).bind ?_
        rintro _ _ ⟨rfl, rfl⟩
        refine leads_storeOnes_bind rfl (.pure ?_)
        exact hQ _ ((hk.withQueue [] _).cleared hrest)

/-- A packet that there is room for is sent and its response waited for. -/
theorem leads_launch_await {oddFrame : Bool}
    (hk : Beside x.channel s k k') (hs : s.interrupts = 0)
    (hroom : room ≤ buffer.length) (hfits : ¬ k.Starved x link room)
    (hT : T → k.answer (x.transaction link buffer room) ≠ .silent) :
    Leads T (do
        (hostOn clock settings).launch x (x.characteristics link oddFrame)
          (x.requested link room) buffer
        (hostOn clock settings).await x (x.requested link room) buffer room) k'
      fun moved k'' => moved = (k.outcome link x buffer room).1 ∧
        Rests x.channel (k.outcome link x buffer room).2 k'' := by
  unfold Controller.outcome
  rw [if_neg hfits]
  obtain ⟨t, ht⟩ : ∃ t, x.transaction link buffer room = t := ⟨_, rfl⟩
  rw [ht] at hT ⊢
  refine (leads_launch (Q := fun _ v => ∃ s' : ChannelState,
    s'.interrupts = 0 ∧ Beside x.channel (s'.answered (k.answer t)) (k.sent t)
      v) hk hroom fun s' v hs' hv => ⟨s', hs'.trans hs, ht ▸ hv⟩).bind ?_
  rintro - v ⟨s', hs', hv⟩
  refine leads_await hv rfl ?_ hT fun k'' hk'' => ⟨rfl, hk''⟩
  simp [ChannelState.answered, hs']

/-- An exchange on a channel at rest, without the wait for a frame. -/
theorem leads_offer (hk : Beside x.channel s k k') (hs : s.enabled = false)
    (hroom : room ≤ buffer.length)
    (hT : T → ¬ k.Starved x link room ∧
      k.answer (x.transaction link buffer room) ≠ .silent) :
    Leads T ((hostOn clock settings).offer link x buffer room) k'
      fun moved k'' => moved = (k.outcome link x buffer room).1 ∧
        Rests x.channel (k.outcome link x buffer room).2 k'' := by
  have hk₁ := (hk.counted (k'.writes + 1)).updateChannel ({ · with split := 0 })
  refine leads_store_bind rfl (leads_load_bind rfl ?_)
  obtain ⟨s', hs', hi, hk₂⟩ := (hk₁.framed _).cleared hs
  refine leads_storeOnes_bind rfl ?_
  dsimp only
  split
  next hsends =>
    refine (leads_awaitTxSpace (Q := fun fits v =>
      fits = decide (wordCount (x.requested link room) ≤ k.txSpace) ∧
        Beside x.channel s' k v) hk₂.txSpace_eq ?_ ⟨rfl, hk₂⟩).bind ?_
    · exact fun ht => Nat.le_of_not_lt fun h => (hT ht).1 ⟨hsends, h⟩
    · rintro _ v ⟨rfl, hv⟩
      unfold Host.attempt
      by_cases hfits : wordCount (x.requested link room) ≤ k.txSpace
      · rw [if_pos (decide_eq_true hfits)]
        have hstarved : ¬ k.Starved x link room := fun h =>
          absurd h.2 (Nat.not_lt_of_le hfits)
        exact leads_launch_await hv hi hroom hstarved fun ht => (hT ht).2
      · rw [if_neg (by simpa using hfits), Controller.outcome,
          if_pos ⟨hsends, Nat.lt_of_not_le hfits⟩]
        exact .pure ⟨rfl, s', hs', hi, hv⟩
  next hsends =>
    unfold Host.attempt
    rw [pure_bind, if_pos rfl]
    have hstarved : ¬ k.Starved x link room := fun h => hsends h.1
    exact leads_launch_await hk₂ hi hroom hstarved fun ht => (hT ht).2

/-- An exchange comes out as `outcome` says, and its channel is at rest again.
It returns for certain if there is room for its packet and the device says
something. -/
theorem leads_transfer {length : Nat} (h : min length buffer.length = room)
    (hT : T → ¬ k.Starved x link room ∧
      k.answer (x.transaction link buffer room) ≠ .silent) :
    Leads T ((hostOn clock settings).transfer link x buffer length) k
      fun moved k' => moved = (k.outcome link x buffer room).1 ∧
        Rests x.channel (k.outcome link x buffer room).2 k' := by
  have hroom : room ≤ buffer.length := h ▸ Nat.min_le_right _ _
  rw [Host.transfer_eq, h]
  refine (leads_quiesce (Q := fun _ v => Rests x.channel k v)
    (.refl x.channel k) fun _ hv => hv).bind ?_
  rintro - k₁ ⟨s₁, hs₁, -, hk₁⟩
  dsimp only
  split
  · refine (leads_awaitFrame (Q := fun _ v => Beside x.channel s₁ k v) hk₁
      fun _ hv => hv).bind ?_
    exact fun _ k₂ hk₂ => leads_offer hk₂ hs₁ hroom hT
  · exact leads_offer hk₁ hs₁ hroom hT

end Exchanging

end Simulation

end UsbHost
