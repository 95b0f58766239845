import UsbHost.Proofs.Host.Indices
import UsbHost.Proofs.Simulation.ReceiveQueue

/-!
# What draining the receive FIFO yields

A receive queue whose data words are in step with its entries is a sequence of
packets, each with the words that belong to its entry.  Draining it for a
channel stores the payloads of that channel's data packets one behind the
other, whatever lies between them, until the buffer is full.

## Main results

* `exists_packets` — a queue in step is a sequence of packets.
* `dataFor_packets`, `length_payloads` — what its own packets hold for a
  channel.
* `drain_stores_payloads` — what is left in a buffer after draining.
-/

namespace UsbHost.Simulation

/-! ## Packets -/

/-- An entry of the receive queue with the words that belong to it. -/
structure QueuedPacket where
  entry : Word
  words : List Word
  length_words : words.length = entryWords entry

namespace QueuedPacket

variable (p : QueuedPacket)

/-- How many bytes the entry announces. -/
def byteCount : Nat := (RxStatus.byteCount.get ⟨p.entry⟩).toNat

/-- The bytes of the packet, without those that only fill its last word. -/
def payload : List Byte := (p.words.flatMap wordBytes).take p.byteCount

/-- A packet for a channel has just the bytes that it announces. -/
theorem length_payload {c : Channel} (h : IsDataFor c p.entry) :
    p.payload.length = p.byteCount := by
  have hwords : p.words.length = wordCount p.byteCount := by
    rw [p.length_words]
    exact if_pos h.1
  have hbytes : (p.words.flatMap wordBytes).length = 4 * p.words.length := by
    rw [List.length_flatMap]
    simp only [length_wordBytes, List.map_const', List.sum_replicate_nat]
    omega
  unfold payload
  rw [List.length_take, hbytes, hwords, wordCount]
  omega

end QueuedPacket

section Packets

variable {c : Channel}

/-- The receive queue is made of the packets, in their order. -/
def Controller.Queues (k : Controller) (ps : List QueuedPacket) : Prop :=
  k.rxStatus = ps.map (·.entry) ∧ k.rxFifo = ps.flatMap (·.words)

/-- Entries and words that are in step are those of a sequence of packets. -/
theorem exists_packets {entries words : List Word}
    (h : words.length = announced entries) :
    ∃ ps : List QueuedPacket,
      entries = ps.map (·.entry) ∧ words = ps.flatMap (·.words) := by
  induction entries generalizing words with
  | nil => exact ⟨[], rfl, List.length_eq_zero_iff.1 h⟩
  | cons entry rest ih =>
    rw [announced] at h
    have hrest : (words.drop (entryWords entry)).length = announced rest := by
      rw [List.length_drop]
      omega
    have hown : (words.take (entryWords entry)).length = entryWords entry := by
      rw [List.length_take]
      omega
    obtain ⟨ps, hentries, hwords⟩ := ih hrest
    refine ⟨⟨entry, words.take (entryWords entry), hown⟩ :: ps, ?_, ?_⟩
    · rw [List.map_cons, ← hentries]
    · rw [List.flatMap_cons, ← hwords, List.take_append_drop]

theorem Controller.InStep.exists_queues {k : Controller} (h : k.InStep) :
    ∃ ps, k.Queues ps :=
  exists_packets h

/-- What a sequence of packets holds for a channel. -/
theorem dataFor_packets (c : Channel) (ps : List QueuedPacket) :
    dataFor c (ps.map (·.entry)) (ps.flatMap (·.words)) =
      (ps.filter (IsDataFor c ·.entry)).flatMap (·.payload) := by
  induction ps with
  | nil => rfl
  | cons p rest ih =>
    rw [List.map_cons, List.flatMap_cons, dataFor, ← p.length_words,
      List.take_left, List.drop_left, ih]
    by_cases hp : IsDataFor c p.entry
    · rw [if_pos hp, List.filter_cons_of_pos (by simpa using hp),
        List.flatMap_cons]
      rfl
    · rw [if_neg hp, List.filter_cons_of_neg (by simpa using hp),
        List.nil_append]

/-- The payloads for a channel have as many bytes together as their entries
announce. -/
theorem length_payloads (c : Channel) (ps : List QueuedPacket) :
    ((ps.filter (IsDataFor c ·.entry)).flatMap (·.payload)).length =
      ((ps.filter (IsDataFor c ·.entry)).map (·.byteCount)).sum := by
  rw [List.length_flatMap]
  congr 1
  refine List.map_congr_left fun p hp => p.length_payload (c := c) ?_
  exact of_decide_eq_true (List.mem_filter.1 hp).2

end Packets

/-! ## Draining -/

section Drain

variable {σ : Type} {host : Host σ} {view : σ → Option Controller}
  {genuine : Register → Prop} {k : Controller} {w : World Register σ}

/-- A queue in step is a sequence of packets, and draining it for a channel
always comes to an end.  The data packets of the channel have been stored at
the front of the buffer then, one behind the other, as far as there is room;
the rest of the buffer is as it was, and nothing is left in the queue.  The
same bytes are returned by the drain that leaves their storing to its caller.
This holds on every machine that shows its queue. -/
theorem drain_stores_payloads (h : Overlay host.core view genuine)
    (hqueue : QueueGenuine genuine) (hk : view w.env = some k)
    (hstep : k.InStep) (c : Channel) {bits : Nat} {out : List Byte}
    (hbits : Addressable bits out.length) :
    (∃ ps, k.Queues ps) ∧ ∀ ps, k.Queues ps →
      let own := ps.filter (IsDataFor c ·.entry)
      let n := min out.length (own.map (·.byteCount)).sum
      let payload := own.flatMap (·.payload)
      (host.drainInto bits c out).Yields True w (fun stored w' =>
        stored = (n, payload.take n ++ out.drop n) ∧
          view w'.env = some (k.withQueue [] [])) ∧
      (host.drain c out.length).Yields True w fun received w' =>
        received = payload.take n ∧ received.length = n ∧
          view w'.env = some (k.withQueue [] []) := by
  refine ⟨hstep.exists_queues, ?_⟩
  intro ps hps own n payload
  have hpayload : dataFor c k.rxStatus k.rxFifo = payload := by
    rw [hps.1, hps.2]
    exact dataFor_packets c ps
  have hn : n = min out.length payload.length :=
    congrArg (min out.length) (length_payloads c ps).symm
  have hdrained : drained c out.length k.rxStatus k.rxFifo [] =
      (payload.take n, []) := by
    rw [drained_eq hstep (Nat.zero_le _), List.nil_append, hpayload, hn,
      ← List.take_eq_take_min]
    rfl
  have hdrain : (host.drain c out.length).Yields True w fun received w' =>
      received = payload.take n ∧ received.length = n ∧
        view w'.env = some (k.withQueue [] []) := by
    refine (yields_drain h hqueue hk).mono ?_
    rintro _ w' ⟨rfl, hk'⟩
    rw [hdrained] at hk' ⊢
    refine ⟨rfl, ?_, hk'⟩
    rw [List.length_take, hn]
    omega
  refine ⟨?_, hdrain⟩
  rw [Host.drainInto_eq c hbits]
  refine hdrain.bind ?_
  rintro received w' ⟨hreceived, hlength, hk'⟩
  refine .pure ⟨?_, hk'⟩
  rw [storedIn, hlength, hreceived]

end Drain

/-- Packets of five bytes for channel 3 and of five and six bytes for channel 1,
with a completion after each of the last two. -/
def mixedPackets : List QueuedPacket :=
  [⟨queueEntry 3 5 .inData, [0x09090909, 0xFFFFFF09], by decide⟩,
    ⟨queueEntry 1 5 .inData, [0x04030201, 0xFFFFFF05], by decide⟩,
    ⟨queueEntry 1 0 .inTransferComplete, [], by decide⟩,
    ⟨queueEntry 1 6 .inData, [0x09080706, 0xFFFF0B0A], by decide⟩,
    ⟨queueEntry 3 0 .inTransferComplete, [], by decide⟩]

/-- Draining these packets for channel 1 fills a buffer of seven bytes up to the
middle of a word, and leaves two of a buffer of thirteen as they were. -/
theorem mixed_packets_drained :
    let host := hostOn (Bench.TickingClock.clock false) {}
    let k := ({} : Controller).withQueue (mixedPackets.map (·.entry))
      (mixedPackets.flatMap (·.words))
    let w : World Register (Controller × Bench.TickingClock) := ⟨(k, {}), []⟩
    ((host.drainInto 64 1 (List.replicate 7 0xEE)).Yields True w
      fun stored w' => stored = (7, [1, 2, 3, 4, 5, 6, 7]) ∧
        w'.env.1 = {}) ∧
    (host.drainInto 64 1 (List.replicate 13 0xEE)).Yields True w
      fun stored w' =>
        stored = (11, [1, 2, 3, 4, 5, 6, 7, 8, 9, 10, 11, 0xEE, 0xEE]) ∧
          w'.env.1 = {} := by
  intro host k w
  have hshows : Overlay host.core (fun e => some e.1) fun _ => True :=
    .ofParts (Bench.TickingClock.clock false)
  have hqueue : QueueGenuine fun _ => True :=
    ⟨trivial, trivial, fun _ => trivial⟩
  have hstep : k.InStep := by decide
  have hstored : ∀ out : List Byte, Addressable 64 out.length → _ :=
    fun out hout => ((drain_stores_payloads (w := w) hshows hqueue rfl hstep 1
      hout).2 mixedPackets ⟨rfl, rfl⟩).1
  constructor
  · refine (hstored (List.replicate 7 0xEE) ⟨by decide, by decide⟩).mono ?_
    rintro _ w' ⟨rfl, hk⟩
    exact ⟨by decide, Option.some.inj hk⟩
  · refine (hstored (List.replicate 13 0xEE) ⟨by decide, by decide⟩).mono ?_
    rintro _ w' ⟨rfl, hk⟩
    exact ⟨by decide, Option.some.inj hk⟩

end UsbHost.Simulation
