import UsbHost.Proofs.Driver.Programming
import UsbHost.Proofs.Simulation.Outcome

/-!
# One transaction for each exchange

The simulated core logs every transaction that reaches the bus.  An exchange
of the driver adds one entry to that log, and every field of the entry is what
the caller asked for: what was encoded into the two registers of the channel
is what the core decodes from them, and the words pushed into the FIFO are the
bytes of the buffer again.  Only a packet that finds no room in the FIFO adds
nothing.

## Main results

* `sent_transactions`, `outcome_transactions` — what is added to the log.
* `carries_logged` — the entry has the fields of the exchange.
* `one_transaction` — the driver's exchange adds that entry and no other.
-/

namespace UsbHost

open Simulation

/-! ## States -/

/-- A reachable state, or one that differs from it in the endpoint that is
polled: any endpoint will do whose packet size fits the registers. -/
inductive Link.Polling : Link → Prop
  | reachable {s : Link} : s.Reachable → Polling s
  | endpoint {s : Link} (hid : HidEndpoint) : s.Reachable →
    hid.maxPacketSize.toNat ≤ 2047 → Polling { s with hid := some hid }

namespace Link.Polling

variable {s : Link}

theorem address_le (h : s.Polling) : s.address.toNat ≤ 1 := by
  cases h with
  | reachable hs => exact hs.sound.address_le
  | endpoint hid hs _ => exact hs.sound.address_le

theorem ep0MaxPacket_le (h : s.Polling) : s.ep0MaxPacket.toNat ≤ 64 := by
  cases h with
  | reachable hs => exact hs.sized.bounds.2
  | endpoint hid hs _ => exact hs.sized.bounds.2

theorem maxPacketSize_le (h : s.Polling) {hid : HidEndpoint}
    (hhid : s.hid = some hid) : hid.maxPacketSize.toNat ≤ 2047 := by
  cases h with
  | reachable hs => exact (hs.sound.hid hid hhid).maxPacketSize
  | endpoint hid' _ hle =>
    cases hhid
    exact hle

/-- Whichever endpoint is asked for, its packet size fits the registers. -/
theorem packetSizeOf_le (h : s.Polling) (endpoint : Byte) :
    (s.packetSizeOf endpoint).toNat ≤ 2047 := by
  have hep0 := h.ep0MaxPacket_le
  unfold Link.packetSizeOf
  split
  · omega
  · cases hhid : s.hid with
    | none =>
      show s.ep0MaxPacket.toNat ≤ 2047
      omega
    | some hid => exact h.maxPacketSize_le hhid

end Link.Polling

/-- How much of a buffer one OUT packet takes. -/
theorem Exchange.requested_out {x : Exchange} (hx : x.direction = .toDevice)
    (s : Link) (length room : Nat) :
    x.requested s (min length room) =
      min length (min room (s.packetSizeOf x.endpoint).toNat) := by
  unfold Exchange.requested
  rw [hx]
  exact Nat.min_assoc ..

namespace Simulation

/-! ## The log -/

/-- A transaction as it is logged: with what the device has sent. -/
def Controller.logged (k : Controller) (t : Transaction) : Transaction :=
  match k.answer t, t.direction with
  | .ack data, .toHost => { t with data }
  | _, _ => t

section Log

variable {k : Controller} {t : Transaction}

theorem logged_out (h : t.direction = .toDevice) : k.logged t = t := by
  unfold Controller.logged
  rw [h]
  cases k.answer t <;> rfl

/-- The log may change the data of a transaction, and nothing else. -/
theorem exists_logged_eq (k : Controller) (t : Transaction) :
    ∃ data, k.logged t = { t with data } := by
  unfold Controller.logged
  split
  · exact ⟨_, rfl⟩
  · exact ⟨t.data, rfl⟩

theorem carried_transactions :
    (k.carried t).transactions = k.logged t :: k.transactions := by
  unfold Controller.carried Controller.logged
  cases k.answer t <;> cases t.direction <;> rfl

/-- Each packet that is sent or asked for is logged once. -/
theorem sent_transactions :
    (k.sent t).transactions = k.logged t :: k.transactions := by
  unfold Controller.sent
  split
  · exact carried_transactions
  · exact carried_transactions

theorem Rests.transactions_eq {c : Channel} {k' : Controller}
    (h : Rests c k k') : k'.transactions = k.transactions := by
  obtain ⟨s, -, -, writes, frame, rfl⟩ := h
  rfl

/-- An exchange is logged once, unless there was no room for its packet. -/
theorem outcome_transactions (k : Controller) (s : Link) (x : Exchange)
    (buffer : List Byte) (room : Nat) :
    (k.outcome s x buffer room).2.transactions =
      if k.Starved x s room then k.transactions
      else k.logged (x.transaction s buffer room) :: k.transactions := by
  have hsent := sent_transactions (k := k) (t := x.transaction s buffer room)
  rcases outcome_cases k s x buffer room with
    ⟨hstarved, h⟩ | ⟨hstarved, hends⟩
  · rw [h, if_pos hstarved]
  · rw [if_neg hstarved, ← hsent]
    rcases hends with ⟨e, -, h⟩ | ⟨data, -, -, h⟩ | ⟨data, -, -, h⟩
    · rw [h]
    · rw [h]
    · rw [h]
      rfl

end Log

/-! ## The fields of the entry -/

/-- The transaction is the one that an exchange stands for which offers, or has
room for, the first `length` bytes of a buffer. -/
structure Transaction.Carries (t : Transaction) (x : Exchange) (s : Link)
    (buffer : List Byte) (length : Nat) : Prop where
  channel : t.channel = x.channel
  address : t.address.toNat = s.address.toNat
  endpoint : t.endpoint.toNat = x.endpoint.toNat
  direction : t.direction = x.direction
  type : t.type = x.type
  pid : t.pid = x.pid
  maxPacket : t.maxPacket.toNat = (s.packetSizeOf x.endpoint).toNat
  lowSpeed : t.lowSpeed = true ↔ s.speed = .low
  asked : x.direction = .toHost →
    t.requested = (s.packetSizeOf x.endpoint).toNat
  offered : x.direction = .toDevice →
    t.requested =
      min length (min buffer.length (s.packetSizeOf x.endpoint).toNat)
  data : x.direction = .toDevice → t.data = buffer.take t.requested

section Carries

variable {s : Link} {x : Exchange}

/-- What is logged for an exchange has the fields of the exchange: none of them
is cut by the registers it has passed through. -/
theorem carries_logged (hs : s.Polling) (hx : x.endpoint.toNat < 16)
    (k : Controller) (buffer : List Byte) (length : Nat) :
    (k.logged (x.transaction s buffer (min length buffer.length))).Carries x s
      buffer length := by
  obtain ⟨data, hlogged⟩ :=
    exists_logged_eq k (x.transaction s buffer (min length buffer.length))
  have haddress := hs.address_le
  have hpacket := hs.packetSizeOf_le x.endpoint
  have hwidth : ∀ {width n : Nat} {v : BitVec width}, v.toNat < 2 ^ n →
      (v.setWidth n).toNat = v.toNat := fun h =>
    (BitVec.toNat_setWidth _ _).trans (Nat.mod_eq_of_lt h)
  constructor
  case data =>
    intro h
    rw [logged_out h]
    exact if_pos h
  -- The other fields are those of the transaction, whatever was received.
  all_goals rw [hlogged]
  case channel => rfl
  case address => exact hwidth (by omega)
  case endpoint => exact hwidth (by omega)
  case direction => rfl
  case type => rfl
  case pid => rfl
  case maxPacket => exact hwidth (by omega)
  case lowSpeed => exact decide_eq_true_iff
  case asked =>
    intro h
    show x.requested s _ = _
    unfold Exchange.requested
    rw [h]
  case offered => exact fun h => x.requested_out h s length buffer.length

end Carries

/-! ## The exchange -/

section Exchanging

variable {τ : Type} {clock : Clock τ} {settings : Settings} {s : Link}
  {x : Exchange} {k : Controller} {buffer : List Byte}

/-- An OUT packet that there is room for is returned with its size just if the
device acknowledges it. -/
theorem acknowledged_iff {room : Nat} (hfits : ¬ k.Starved x s room)
    (hx : x.direction = .toDevice) :
    ((∃ data, k.answer (x.transaction s buffer room) = .ack data) ↔
      (k.outcome s x buffer room).1.result = .ok (x.requested s room)) ∧
    ∀ m, (k.outcome s x buffer room).1.result = .ok m →
      m = x.requested s room := by
  constructor
  · constructor
    · intro ⟨data, hr⟩
      rw [outcome_out hfits hr hx]
    · exact fun h => (answer_of_outcome_ok h).2
  · intro m h
    obtain ⟨-, data, hr⟩ := answer_of_outcome_ok h
    rw [outcome_out hfits hr hx] at h
    cases h
    rfl

/-- An exchange that returns has added one entry to the log of the core: the
transaction that it stands for.  If that is an OUT packet, the exchange succeeds
just if the device acknowledges it, and returns its size.  Only an OUT packet
that has more words than the FIFO has free adds nothing, and ends as an error.
If there is room and the device says something, the exchange does return. -/
theorem one_transaction (hs : s.Polling) (hx : x.endpoint.toNat < 16)
    (buffer : List Byte) (length : Nat)
    (w : World Register (Controller × τ)) :
    let transfer := (hostOn clock settings).transfer s x buffer length
    let k := w.env.1
    let packet :=
      min length (min buffer.length (s.packetSizeOf x.endpoint).toNat)
    let blocked := x.direction = .toDevice ∧ 0 < packet ∧
      (NpTxStatus.spaceAvailable.get ⟨(k.read .npTxStatus).1⟩).toNat <
        wordCount packet
    (∀ n moved w', transfer n w = .ok moved w' →
      (w'.env.1.transactions = k.transactions ↔ blocked) ∧
      (blocked → moved = ⟨.error .error, buffer⟩) ∧
      (¬ blocked → ∃ t, w'.env.1.transactions = t :: k.transactions ∧
        t.Carries x s buffer length ∧
        (x.direction = .toDevice →
          ((∃ data, k.answer t = .ack data) ↔
            moved.result = .ok t.requested) ∧
          ∀ m, moved.result = .ok m → m = t.requested))) ∧
    (¬ blocked →
      k.answer (x.transaction s buffer (min length buffer.length)) ≠ .silent →
      ∃ enough, ∀ n, enough ≤ n → ∃ moved w', transfer n w = .ok moved w') := by
  intro transfer k packet blocked
  obtain ⟨room, hroom⟩ : ∃ room, min length buffer.length = room :=
    ⟨_, rfl⟩
  have hblocked : k.Starved x s room ↔ blocked := by
    have hrequested : x.direction = .toDevice → x.requested s room = packet :=
      fun h => hroom ▸ x.requested_out h s length buffer.length
    constructor
    · intro ⟨⟨hout, hpos⟩, hspace⟩
      rw [hrequested hout] at hpos hspace
      exact ⟨hout, hpos, hspace⟩
    · intro ⟨hout, hpos, hspace⟩
      rw [← hrequested hout] at hpos hspace
      exact ⟨⟨hout, hpos⟩, hspace⟩
  have hcarries := carries_logged hs hx k buffer length
  rw [hroom] at hcarries ⊢
  constructor
  · intro n moved w' hrun
    obtain ⟨rfl, hrests⟩ :=
      (leads_transfer (T := False) hroom False.elim).of_run rfl hrun
    have hlog : w'.env.1.transactions = _ :=
      hrests.transactions_eq.trans (outcome_transactions k s x buffer room)
    by_cases hstarved : k.Starved x s room
    · rw [if_pos hstarved] at hlog
      have hmoved : (k.outcome s x buffer room).1 =
          ⟨.error .error, buffer⟩ := congrArg Prod.fst (if_pos hstarved)
      exact ⟨iff_of_true hlog (hblocked.1 hstarved), fun _ => hmoved,
        fun h => absurd (hblocked.1 hstarved) h⟩
    · rw [if_neg hstarved] at hlog
      have hfree : ¬ blocked := fun h => hstarved (hblocked.2 h)
      refine ⟨iff_of_false ?_ hfree, fun h => absurd h hfree, fun _ =>
        ⟨_, hlog, hcarries, fun hout => ?_⟩⟩
      · rw [hlog]
        exact List.cons_ne_self _ _
      · rw [logged_out hout]
        exact acknowledged_iff hstarved hout
  · intro hfree hanswer
    have htotal : Leads True transfer k _ := leads_transfer hroom fun _ =>
      ⟨fun h => hfree (hblocked.1 h), hanswer⟩
    obtain ⟨moved, w', n, hrun⟩ := (htotal w rfl).2 trivial
    exact ⟨n, fun m hm => ⟨moved, w', hrun m hm⟩⟩

end Exchanging

/-- A core with a single free word in its transmit FIFO. -/
def crampedBench : World Register (Controller × Bench.TickingClock) :=
  ⟨({ npTxStatus := 1 }, {}), []⟩

/-- On a core with a single free word, the two words of a SETUP packet have no
room; four bytes for a polled endpoint with the largest packet size are logged
with all their fields, although the device stalls them. -/
theorem cramped_core_logs :
    let host := hostOn (Bench.TickingClock.clock false)
      { txFifoTimeout := .zero }
    let setup : Exchange := .control .toDevice .setup
    let s : Link := { hid := some ⟨3, 2047, 0⟩ }
    let x : Exchange :=
      { channel := 5, endpoint := 3, direction := .toDevice, type := .bulk,
        pid := .data1 }
    (∃ moved w', host.transfer s setup [128, 6, 0, 1, 0, 0, 18, 0] 8 8
        crampedBench = .ok moved w' ∧
      moved.result = .error .error ∧ w'.env.1.transactions = []) ∧
    ∃ moved w' t, host.transfer s x [1, 2, 3, 4, 5] 4 8 crampedBench =
        .ok moved w' ∧
      moved.result = .error .stall ∧ w'.env.1.transactions = [t] ∧
      t.Carries x s [1, 2, 3, 4, 5] 4 := by
  intro host setup s x
  have hs : s.Polling :=
    .endpoint ⟨3, 2047, 0⟩ initial_reachable (by decide)
  constructor
  · have hreturns : (host.transfer s setup [128, 6, 0, 1, 0, 0, 18, 0]
        8).returns 8 crampedBench (fun _ _ => true) = true := by
      decide +kernel
    obtain ⟨moved, w', hrun, -⟩ := Run.exists_of_returns hreturns
    obtain ⟨hnone, hfails, -⟩ := (one_transaction hs (x := setup) (by decide)
      [128, 6, 0, 1, 0, 0, 18, 0] 8 crampedBench).1 8 moved w' hrun
    exact ⟨moved, w', hrun, by rw [hfails (by decide)], hnone.2 (by decide)⟩
  · have hreturns : (host.transfer s x [1, 2, 3, 4, 5] 4).returns 8
        crampedBench (fun moved _ => decide (moved.result = .error .stall)) =
          true := by
      decide +kernel
    obtain ⟨moved, w', hrun, hresult⟩ := Run.exists_of_returns hreturns
    obtain ⟨-, -, hlogged⟩ := (one_transaction hs (x := x) (by decide)
      [1, 2, 3, 4, 5] 4 crampedBench).1 8 moved w' hrun
    obtain ⟨t, hlog, hcarries, -⟩ := hlogged (by decide)
    exact ⟨moved, w', t, hrun, of_decide_eq_true hresult, hlog, hcarries⟩

end Simulation

end UsbHost
