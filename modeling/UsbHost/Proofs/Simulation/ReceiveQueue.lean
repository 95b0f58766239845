import UsbHost.Host.Exchange
import UsbHost.Proofs.Simulation.Leads
import UsbHost.Proofs.Simulation.Overlay
import UsbHost.Proofs.Wire.Packing

/-!
# The receive queue

The receive queue of the simulated core consists of entries and of data words
that belong to the entries which announce data.  The two are in step if the
words are just as many as the entries announce; then draining the queue
attributes every word to its own entry.

## Main results

* `queueEntry_fields` — an entry reads back as it was queued.
* `yields_drain`, `leads_drain` — draining takes every entry off the queue and
  always ends, on any machine that shows its queue.
* `drained_eq` — from a queue in step it stores what the entries of the channel
  announce, as far as there is room, and leaves no word behind.
-/

namespace UsbHost.Simulation

variable {τ : Type} {T : Prop} {clock : Clock τ} {settings : Settings}
  {k : Controller}

/-! ## Entries -/

/-- The bits of an entry: the channel, the count and the status, each at its
place. -/
theorem getLsbD_queueEntry (channel : BitVec 4) {count : Nat}
    (status : PacketStatus) (h : count < 2048) (i : Nat) :
    (queueEntry channel count status).getLsbD i =
      if i < 4 then channel.getLsbD i
      else if i < 15 then count.testBit (i - 4)
      else if i < 17 then false
      else (PacketStatus.coding.encode status).getLsbD (i - 17) := by
  have hcount : ∀ j, 11 ≤ j → count.testBit j = false := fun j hj =>
    Nat.testBit_lt_two_pow
      (Nat.lt_of_lt_of_le h (Nat.pow_le_pow_right (n := 2) (by decide) hj))
  simp only [queueEntry, BitVec.getLsbD_or, BitVec.getLsbD_shiftLeft,
    BitVec.getLsbD_setWidth, BitVec.getLsbD_ofNat]
  by_cases h4 : i < 4
  · have h17 : i < 17 := by omega
    have h32 : i < 32 := by omega
    simp [h4, h17, h32]
  · have hchannel : channel.getLsbD i = false :=
      BitVec.getLsbD_of_ge _ _ (by omega)
    by_cases h15 : i < 15
    · have h17 : i < 17 := by omega
      have h32 : i < 32 := by omega
      have h32' : i - 4 < 32 := by omega
      simp [h4, h15, h17, h32, h32', hchannel]
    · have hzero := hcount (i - 4) (by omega)
      by_cases h17 : i < 17
      · simp [h4, h15, h17, hchannel, hzero]
      · by_cases h21 : i < 21
        · have h32 : i < 32 := by omega
          have h32' : i - 17 < 32 := by omega
          simp [h4, h15, h17, h32, h32', hchannel, hzero]
        · have hstatus :
              (PacketStatus.coding.encode status).getLsbD (i - 17) = false :=
            BitVec.getLsbD_of_ge _ _ (by omega)
          simp [h4, h15, h17, hchannel, hzero, hstatus]

/-- An entry reads back as it was queued, if its count fits the field. -/
theorem queueEntry_fields (channel : BitVec 4) {count : Nat}
    (status : PacketStatus) (h : count < 2048) :
    RxStatus.channel.get ⟨queueEntry channel count status⟩ = channel ∧
      (RxStatus.byteCount.get ⟨queueEntry channel count status⟩).toNat =
        count ∧
      RxStatus.packetStatus.get ⟨queueEntry channel count status⟩ =
        status := by
  have hset : (⟨queueEntry channel count status⟩ : RxStatus) =
      RxStatus.packetStatus.set status
        (RxStatus.byteCount.set (BitVec.ofNat 11 count)
          (RxStatus.channel.set channel ⟨0⟩)) := by
    apply BitField.eq_of_getLsbD_eq
    intro i hi
    rw [BitField.getLsbD_set, BitField.getLsbD_set, BitField.getLsbD_set]
    refine (getLsbD_queueEntry channel status h i).trans ?_
    have hfields : (RxStatus.packetStatus.Covers i ↔ 17 ≤ i ∧ i < 21) ∧
        (RxStatus.byteCount.Covers i ↔ 4 ≤ i ∧ i < 15) ∧
        (RxStatus.channel.Covers i ↔ 0 ≤ i ∧ i < 4) :=
      ⟨Iff.rfl, Iff.rfl, Iff.rfl⟩
    have hrest : (Packed.raw (⟨0⟩ : RxStatus)).getLsbD i = false := by
      simp [Packed.raw]
    have hhigh : 21 ≤ i →
        (PacketStatus.coding.encode status).getLsbD (i - 17) = false :=
      fun hi => BitVec.getLsbD_of_ge _ _ (by omega)
    simp only [hfields, hrest]
    simp only [RxStatus.packetStatus, RxStatus.byteCount, RxStatus.channel,
      BitField.coded, BitField.uint, Coding.uint, id, BitVec.getLsbD_ofNat]
    grind
  rw [hset]
  refine ⟨?_, ?_, ?_⟩
  · simp (disch := decide) only [BitField.get_set_of_disjoint,
      BitField.get_set]
  · simp (disch := decide) only [BitField.get_set_of_disjoint,
      BitField.get_set, BitVec.toNat_ofNat]
    omega
  · exact BitField.get_set _ _ _

/-! ## Contents -/

/-- How many words of data belong to an entry. -/
def entryWords (entry : Word) : Nat :=
  if RxStatus.packetStatus.get ⟨entry⟩ = .inData then
    wordCount (RxStatus.byteCount.get ⟨entry⟩).toNat
  else 0

/-- How many words the entries announce. -/
def announced : List Word → Nat
  | [] => 0
  | entry :: rest => entryWords entry + announced rest

/-- Whether an entry announces data for a channel. -/
def IsDataFor (c : Channel) (entry : Word) : Prop :=
  RxStatus.packetStatus.get ⟨entry⟩ = .inData ∧
    (RxStatus.channel.get ⟨entry⟩).toNat = c.val

instance (c : Channel) (entry : Word) : Decidable (IsDataFor c entry) :=
  inferInstanceAs (Decidable (_ ∧ _))

/-- The bytes that entries announce for a channel, found in the words that
follow one another. -/
def dataFor (c : Channel) : (entries words : List Word) → List Byte
  | [], _ => []
  | entry :: rest, words =>
    (if IsDataFor c entry then
      ((words.take (entryWords entry)).flatMap wordBytes).take
        (RxStatus.byteCount.get ⟨entry⟩).toNat
    else []) ++ dataFor c rest (words.drop (entryWords entry))

/-- The words of the queue are just those that its entries announce. -/
def Controller.InStep (k : Controller) : Prop :=
  k.rxFifo.length = announced k.rxStatus

instance (k : Controller) : Decidable k.InStep :=
  inferInstanceAs (Decidable (_ = _))

theorem announced_append (entries entries' : List Word) :
    announced (entries ++ entries') =
      announced entries + announced entries' := by
  induction entries with
  | nil => simp [announced]
  | cons entry rest ih => simp [announced, ih, Nat.add_assoc]

/-- Entries and words behind those that are in step keep their meaning. -/
theorem dataFor_append (c : Channel) {entries words : List Word}
    (entries' words' : List Word) (h : words.length = announced entries) :
    dataFor c (entries ++ entries') (words ++ words') =
      dataFor c entries words ++ dataFor c entries' words' := by
  induction entries generalizing words with
  | nil =>
    have hnil : words = [] := List.length_eq_zero_iff.1 h
    simp [hnil, dataFor]
  | cons entry rest ih =>
    have hle : entryWords entry ≤ words.length := by
      rw [h, announced]
      omega
    have hrest : (words.drop (entryWords entry)).length = announced rest := by
      rw [List.length_drop, h, announced]
      omega
    simp only [List.cons_append, dataFor, List.append_assoc]
    rw [List.take_append_of_le_length hle, List.drop_append_of_le_length hle,
      ih hrest]

theorem dataFor_eq_nil {c : Channel} {entries : List Word}
    (h : ∀ entry ∈ entries, ¬ IsDataFor c entry) (words : List Word) :
    dataFor c entries words = [] := by
  induction entries generalizing words with
  | nil => rfl
  | cons entry rest ih =>
    have hentry := h entry List.mem_cons_self
    have hrest := ih fun e he => h e (List.mem_cons_of_mem entry he)
    simp [dataFor, hentry, hrest]

/-- What an acknowledged packet adds to a queue: its data and nothing else. -/
theorem dataFor_packet (c : Channel) {data : List Byte}
    (h : data.length < 2048) :
    announced [queueEntry (BitVec.ofNat 4 c.val) data.length .inData,
        queueEntry (BitVec.ofNat 4 c.val) 0 .inTransferComplete] =
      (packetWords data).length ∧
    dataFor c [queueEntry (BitVec.ofNat 4 c.val) data.length .inData,
        queueEntry (BitVec.ofNat 4 c.val) 0 .inTransferComplete]
      (packetWords data) = data := by
  obtain ⟨hchannel, hcount, hstatus⟩ :=
    queueEntry_fields (BitVec.ofNat 4 c.val) .inData h
  obtain ⟨-, -, hstatus'⟩ :=
    queueEntry_fields (BitVec.ofNat 4 c.val) .inTransferComplete
      (show 0 < 2048 by decide)
  have hval : (BitVec.ofNat 4 c.val).toNat = c.val := by
    have := c.isLt
    rw [BitVec.toNat_ofNat]
    omega
  have hwords : (packetWords data).length = wordCount data.length :=
    length_packetWords data
  constructor
  · simp [announced, entryWords, hstatus, hstatus', hcount, hwords]
  · simp [dataFor, IsDataFor, entryWords, hstatus, hstatus', hcount, hchannel,
      hval, ← hwords]

/-! ## Draining -/

/-- The first `count` words, or zeros where there are no more. -/
def popped (count : Nat) (words : List Word) : List Word :=
  words.take count ++ List.replicate (count - words.length) 0

/-- What draining the queue for a channel adds to the bytes stored so far, and
the words it leaves. -/
def drained (c : Channel) (room : Nat) :
    (entries words : List Word) → (stored : List Byte) → List Byte × List Word
  | [], words, stored => (stored, words)
  | entry :: rest, words, stored =>
    if RxStatus.packetStatus.get ⟨entry⟩ = .inData then
      let keep :=
        if IsDataFor c entry then
          min (stored.length + (RxStatus.byteCount.get ⟨entry⟩).toNat) room
        else stored.length
      drained c room rest (words.drop (entryWords entry))
        (stored ++ ((popped (entryWords entry) words).flatMap wordBytes).take
          (keep - stored.length))
    else drained c room rest words stored

/-- The controller with another content of its receive queue. -/
def Controller.withQueue (k : Controller) (entries words : List Word) :
    Controller :=
  { k with rxStatus := entries, rxFifo := words }

section Reading

variable (k)

theorem read_interruptStatus :
    k.read .interruptStatus = (k.interruptStatus.bits, k) := rfl

theorem read_rxStatusPop (entry : Word) (rest words : List Word) :
    (k.withQueue (entry :: rest) words).read .rxStatusPop =
      (entry, k.withQueue rest words) := rfl

theorem read_fifo (c : Channel) (entries words : List Word) :
    (k.withQueue entries words).read (.fifo c) =
      (words.headD 0, k.withQueue entries words.tail) := rfl

theorem decode_rxStatusPop (v : Word) :
    Register.rxStatusPop.decode v = ⟨v⟩ := rfl

/-- The receive level shows whether an entry is waiting. -/
theorem contains_rxFifoLevel :
    (Register.interruptStatus.decode k.interruptStatus.bits).contains
      CoreInterrupts.rxFifoLevel = !k.rxStatus.isEmpty := by
  simp only [Controller.interruptStatus, Register.decode]
  cases k.rxStatus.isEmpty <;> cases k.inHostMode <;> rfl

end Reading

theorem popped_succ (count : Nat) (words : List Word) :
    popped (count + 1) words = words.headD 0 :: popped count words.tail := by
  cases words with
  | nil => simp [popped, List.replicate_succ]
  | cons word rest => simp [popped]

/-- What draining reads is never replaced. -/
structure QueueGenuine (genuine : Register → Prop) : Prop where
  level : genuine .interruptStatus
  entries : genuine .rxStatusPop
  words : ∀ c, genuine (.fifo c)

section Drain

variable {σ : Type} {host : Host σ} {view : σ → Option Controller}
  {genuine : Register → Prop} {w : World Register σ}

/-- Taking a packet off the FIFO stores its bytes, as far as they are to be
kept. -/
theorem yields_takePacket (h : Overlay host.core view genuine)
    (hqueue : QueueGenuine genuine) {c : Channel} {keep count : Nat}
    {entries words : List Word} {stored : List Byte}
    (hk : view w.env = some (k.withQueue entries words)) :
    (host.takePacket c keep count stored).Yields T w fun received w' =>
      received = stored ++
          ((popped count words).flatMap wordBytes).take
            (keep - stored.length) ∧
        view w'.env = some (k.withQueue entries (words.drop count)) := by
  induction count generalizing w words stored with
  | zero => exact .pure ⟨by simp [popped], hk⟩
  | succ count ih =>
    refine (h.load (hqueue.words c) hk).bind ?_
    rintro _ w' ⟨rfl, hk'⟩
    rw [read_fifo] at hk' ⊢
    have htake : (wordBytes (words.headD 0)).take (keep - stored.length) ++
        ((popped count words.tail).flatMap wordBytes).take (keep -
          (stored ++
            (wordBytes (words.headD 0)).take (keep - stored.length)).length) =
        ((popped (count + 1) words).flatMap wordBytes).take
          (keep - stored.length) := by
      rw [popped_succ, List.flatMap_cons, List.take_append, length_wordBytes]
      congr 2
      simp only [List.length_append, List.length_take, length_wordBytes]
      omega
    have hdrop : words.tail.drop count = words.drop (count + 1) := by
      rw [List.drop_tail, Nat.add_comm]
    rw [← htake, ← hdrop, ← List.append_assoc]
    exact ih hk'

/-- Draining takes every entry off the queue and always comes to an end. -/
theorem yields_drain (h : Overlay host.core view genuine)
    (hqueue : QueueGenuine genuine) {c : Channel} {room : Nat}
    (hk : view w.env = some k) :
    (host.drain c room).Yields T w fun received w' =>
      received = (drained c room k.rxStatus k.rxFifo []).1 ∧
        view w'.env = some
          (k.withQueue [] (drained c room k.rxStatus k.rxFifo []).2) := by
  -- What is left to be drained leads to the same end as the whole queue.
  refine .loop
    (fun stored w => ∃ entries words,
      view w.env = some (k.withQueue entries words) ∧
      drained c room entries words stored =
        drained c room k.rxStatus k.rxFifo [])
    (fun _ w => ((view w.env).map fun k => k.rxStatus.length).getD 0) ?_
    ⟨k.rxStatus, k.rxFifo, hk, rfl⟩
  rintro stored w ⟨entries, words, hk, hrest⟩
  refine (h.load hqueue.level hk).bind ?_
  rintro _ w₁ ⟨rfl, hk₁⟩
  rw [read_interruptStatus] at hk₁ ⊢
  rw [contains_rxFifoLevel, hk, Option.map_some, Option.getD_some]
  cases entries with
  | nil =>
    refine .pure ?_
    rw [← hrest]
    exact ⟨rfl, hk₁⟩
  | cons entry rest =>
    refine (h.load hqueue.entries hk₁).bind ?_
    rintro _ w₂ ⟨rfl, hk₂⟩
    rw [read_rxStatusPop] at hk₂ ⊢
    rw [decode_rxStatusPop]
    rw [drained] at hrest
    have hshorter : ∀ {w' : World Register σ} {words'},
        view w'.env = some (k.withQueue rest words') →
        T → ((view w'.env).map fun k => k.rxStatus.length).getD 0 <
          (entry :: rest).length := by
      intro w' words' hk' _
      rw [hk', Option.map_some, Option.getD_some]
      exact Nat.lt_succ_self _
    by_cases hin : RxStatus.packetStatus.get ⟨entry⟩ = .inData
    · have hcount : wordCount (RxStatus.byteCount.get ⟨entry⟩).toNat =
          entryWords entry := by
        simp [entryWords, hin]
      rw [if_pos hin] at hrest
      rw [if_neg (not_not_intro hin)]
      simp only [IsDataFor, hin, true_and] at hrest
      simp only [hcount]
      refine (yields_takePacket h hqueue hk₂).bind ?_
      rintro _ w₃ ⟨rfl, hk₃⟩
      exact .pure ⟨⟨rest, _, hk₃, hrest⟩, hshorter hk₃⟩
    · rw [if_neg hin] at hrest
      rw [if_pos hin]
      exact .pure ⟨⟨rest, words, hk₂, hrest⟩, hshorter hk₂⟩

end Drain

theorem leads_drain {c : Channel} {room : Nat} {entries words : List Word}
    {Q : List Byte → Controller → Prop}
    (h : Q (drained c room entries words []).1
      (k.withQueue [] (drained c room entries words []).2)) :
    Leads T ((hostOn clock settings).drain c room)
      (k.withQueue entries words) Q := by
  intro w hw
  have hqueue : QueueGenuine fun _ => True :=
    ⟨trivial, trivial, fun _ => trivial⟩
  have hdrain : ((hostOn clock settings).drain c room).Yields T w _ :=
    yields_drain (.ofParts clock) hqueue (congrArg some hw)
  refine hdrain.mono ?_
  rintro _ w' ⟨rfl, hk⟩
  rw [Option.some.inj hk]
  exact h

/-! ## Draining a queue in step -/

/-- Storing as much of a payload as fits leaves less room for the rest. -/
theorem append_take_append {stored : List Byte} {room : Nat}
    (payload rest : List Byte) :
    stored ++ (payload ++ rest).take (room - stored.length) =
      (stored ++ payload.take (room - stored.length)) ++
        rest.take
          (room - (stored ++ payload.take (room - stored.length)).length) := by
  rw [List.take_append, List.append_assoc]
  congr 3
  simp only [List.length_append, List.length_take]
  omega

/-- Draining a queue in step stores what its entries announce for the channel,
as far as there is room, and leaves no word behind. -/
theorem drained_eq {c : Channel} {room : Nat} {entries words : List Word}
    {stored : List Byte} (hstep : words.length = announced entries)
    (hroom : stored.length ≤ room) :
    drained c room entries words stored =
      (stored ++ (dataFor c entries words).take (room - stored.length),
        []) := by
  induction entries generalizing words stored with
  | nil =>
    obtain rfl : words = [] := List.length_eq_zero_iff.1 hstep
    simp [drained, dataFor]
  | cons entry rest ih =>
    have hle : entryWords entry ≤ words.length := by
      rw [hstep, announced]
      omega
    have hrest : (words.drop (entryWords entry)).length = announced rest := by
      rw [List.length_drop, hstep, announced]
      omega
    have hpopped : popped (entryWords entry) words =
        words.take (entryWords entry) := by
      simp [popped, Nat.sub_eq_zero_of_le hle]
    rw [drained, dataFor]
    by_cases hc : IsDataFor c entry
    · have hkeep : ((words.take (entryWords entry)).flatMap wordBytes).take
          (min (stored.length + (RxStatus.byteCount.get ⟨entry⟩).toNat) room -
            stored.length) =
          (((words.take (entryWords entry)).flatMap wordBytes).take
            (RxStatus.byteCount.get ⟨entry⟩).toNat).take
              (room - stored.length) := by
        rw [List.take_take]
        congr 1
        omega
      simp only [if_pos hc, if_pos hc.1, hpopped, hkeep]
      rw [ih hrest (by simp only [List.length_append, List.length_take]; omega),
        append_take_append]
    · by_cases hin : RxStatus.packetStatus.get ⟨entry⟩ = .inData
      · simp only [if_neg hc, if_pos hin, Nat.sub_self, List.take_zero,
          List.append_nil, List.nil_append]
        exact ih hrest hroom
      · have hzero : entryWords entry = 0 := by simp [entryWords, hin]
        rw [hzero, List.drop_zero] at hrest ⊢
        simp only [if_neg hc, if_neg hin, List.nil_append]
        exact ih hrest hroom

end UsbHost.Simulation
