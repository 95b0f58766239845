import UsbHost.Proofs.Simulation.Exchange

/-!
# What an exchange changes

The outcome of an exchange on the simulated core, by cases: what it returns,
what it does to the device and to the receive queue, and what it leaves alone.

## Main results

* `outcome_cases` — the four ways an exchange can end.
* `outcome_sameCore`, `outcome_device` — an exchange changes the device as the
  transaction does, and nothing that the core is programmed with.
* `outcome_in`, `outcome_out` — what an acknowledged exchange returns.
-/

namespace UsbHost.Simulation

/-! ## What traffic leaves alone -/

/-- The two controllers differ by traffic only: channels, receive queue, device
and counters. -/
structure SameCore (k k' : Controller) : Prop where
  coreId : k'.coreId = k.coreId
  port : k'.port = k.port
  npTxStatus : k'.npTxStatus = k.npTxStatus
  resetControl : k'.resetControl = k.resetControl
  stored : k'.stored = k.stored

namespace SameCore

variable {k k' k'' : Controller}

theorem refl (k : Controller) : SameCore k k := ⟨rfl, rfl, rfl, rfl, rfl⟩

theorem trans (h : SameCore k k') (h' : SameCore k' k'') : SameCore k k'' :=
  ⟨h'.coreId.trans h.coreId, h'.port.trans h.port,
    h'.npTxStatus.trans h.npTxStatus, h'.resetControl.trans h.resetControl,
    h'.stored.trans h.stored⟩

theorem txSpace_eq (h : SameCore k k') : k'.txSpace = k.txSpace := by
  unfold Controller.txSpace
  rw [h.npTxStatus]

theorem starved_iff (h : SameCore k k') (x : Exchange) (s : Link)
    (room : Nat) : k'.Starved x s room ↔ k.Starved x s room := by
  unfold Controller.Starved
  rw [h.txSpace_eq]

end SameCore

/-- Nothing in the receive queue is out of step, and nothing is left in it for
the channel. -/
def Controller.Clean (c : Channel) (k : Controller) : Prop :=
  k.InStep ∧ ∀ entry ∈ k.rxStatus, ¬ IsDataFor c entry

namespace Rests

variable {c : Channel} {k k' : Controller}

theorem sameCore (h : Rests c k k') : SameCore k k' := by
  obtain ⟨s, -, -, writes, frame, rfl⟩ := h
  exact ⟨rfl, rfl, rfl, rfl, rfl⟩

theorem device_eq (h : Rests c k k') : k'.device = k.device := by
  obtain ⟨s, -, -, writes, frame, rfl⟩ := h
  rfl

theorem clean_iff {d : Channel} (h : Rests c k k') :
    k'.Clean d ↔ k.Clean d := by
  obtain ⟨s, -, -, writes, frame, rfl⟩ := h
  exact Iff.rfl

end Rests

/-! ## The ways an exchange can end -/

section Outcome

variable {k : Controller} {s : Link} {x : Exchange} {buffer : List Byte}
  {room : Nat}

theorem sent_device (t : Transaction) :
    (k.sent t).device = (k.device.respond t).2 := by
  unfold Controller.sent Controller.carried Controller.answer
  split
  · dsimp only
    split <;> rfl
  · dsimp only
    split <;> rfl

theorem sent_sameCore (t : Transaction) : SameCore k (k.sent t) := by
  unfold Controller.sent Controller.carried
  split
  · dsimp only
    split <;> exact ⟨rfl, rfl, rfl, rfl, rfl⟩
  · dsimp only
    split <;> exact ⟨rfl, rfl, rfl, rfl, rfl⟩

/-- Only data from the device goes into the receive queue. -/
theorem sent_queue {t : Transaction}
    (h : ∀ data, k.answer t = .ack data → t.direction = .toDevice) :
    (k.sent t).rxStatus = k.rxStatus ∧ (k.sent t).rxFifo = k.rxFifo := by
  have hanswer : ∀ p, { k with pendingOut := p }.answer t = k.answer t :=
    fun _ => rfl
  unfold Controller.sent Controller.carried
  simp only [hanswer]
  cases hr : k.answer t with
  | ack data =>
    rw [h data hr]
    split
    · exact ⟨rfl, rfl⟩
    · exact ⟨rfl, rfl⟩
  | _ =>
    split
    · exact ⟨rfl, rfl⟩
    · exact ⟨rfl, rfl⟩

/-- Data from the device is queued behind what was there. -/
theorem sent_queue_in {t : Transaction} {data : List Byte}
    (hr : k.answer t = .ack data) (ht : t.direction = .toHost) :
    (k.sent t).rxStatus = k.rxStatus ++
        [queueEntry (BitVec.ofNat 4 t.channel.val) data.length .inData,
          queueEntry (BitVec.ofNat 4 t.channel.val) 0 .inTransferComplete] ∧
      (k.sent t).rxFifo = k.rxFifo ++ packetWords data := by
  have hout : ¬ (t.direction = .toDevice ∧ 0 < t.requested) := by
    rw [ht]
    exact fun h => nomatch h.1
  unfold Controller.sent Controller.carried
  rw [if_neg hout, hr, ht]
  exact ⟨rfl, rfl⟩

/-- The four ways an exchange can end: without room for its packet, with a
response that is a failure, or acknowledged in one of the two directions. -/
theorem outcome_cases (k : Controller) (s : Link) (x : Exchange)
    (buffer : List Byte) (room : Nat) :
    let t := x.transaction s buffer room
    (k.Starved x s room ∧
      k.outcome s x buffer room = (⟨.error .error, buffer⟩, k)) ∨
    ¬ k.Starved x s room ∧
      ((∃ e, (k.answer t).ending = .error e ∧
          k.outcome s x buffer room = (⟨.error e, buffer⟩, k.sent t)) ∨
        (∃ data, k.answer t = .ack data ∧ x.direction = .toDevice ∧
          k.outcome s x buffer room =
            (⟨.ok (x.requested s room), buffer⟩, k.sent t)) ∨
        ∃ data, k.answer t = .ack data ∧ x.direction = .toHost ∧
          k.outcome s x buffer room =
            let received := (drained x.channel room (k.sent t).rxStatus
              (k.sent t).rxFifo [])
            (⟨.ok received.1.length,
                received.1 ++ buffer.drop received.1.length⟩,
              (k.sent t).withQueue [] received.2)) := by
  intro t
  unfold Controller.outcome
  by_cases hstarved : k.Starved x s room
  · exact .inl ⟨hstarved, if_pos hstarved⟩
  · right
    rw [if_neg hstarved]
    have hending : ∀ {e}, (k.answer t).ending = .error e →
        (k.sent t).settled x (k.answer t) (x.requested s room) buffer room =
          (⟨.error e, buffer⟩, k.sent t) := by
      intro e he
      unfold Controller.settled
      rw [he]
    refine ⟨hstarved, ?_⟩
    cases hr : k.answer t with
    | ack data =>
      right
      cases hx : x.direction with
      | toDevice =>
        left
        refine ⟨data, rfl, rfl, ?_⟩
        simp only [Controller.settled, Response.ending, hx, t]
      | toHost =>
        right
        refine ⟨data, rfl, rfl, ?_⟩
        simp only [Controller.settled, Response.ending, hx, t]
    | _ =>
      left
      rw [← hr]
      exact ⟨_, by rw [hr]; rfl, hending (by rw [hr]; rfl)⟩

theorem outcome_sameCore (k : Controller) (s : Link) (x : Exchange)
    (buffer : List Byte) (room : Nat) :
    SameCore k (k.outcome s x buffer room).2 := by
  have hsent := sent_sameCore (k := k) (x.transaction s buffer room)
  rcases outcome_cases k s x buffer room with
    ⟨-, h⟩ | ⟨-, ⟨e, -, h⟩ | ⟨data, -, -, h⟩ | ⟨data, -, -, h⟩⟩
  · rw [h]
    exact .refl k
  · rw [h]
    exact hsent
  · rw [h]
    exact hsent
  · rw [h]
    exact ⟨hsent.coreId, hsent.port, hsent.npTxStatus, hsent.resetControl,
      hsent.stored⟩

/-- The device sees the transaction of an exchange, unless there was no room
for its packet. -/
theorem outcome_device (k : Controller) (s : Link) (x : Exchange)
    (buffer : List Byte) (room : Nat) :
    (k.outcome s x buffer room).2.device =
      if k.Starved x s room then k.device
      else (k.device.respond (x.transaction s buffer room)).2 := by
  have hsent := sent_device (k := k) (x.transaction s buffer room)
  rcases outcome_cases k s x buffer room with
    ⟨hstarved, h⟩ | ⟨hstarved, hends⟩
  · rw [h, if_pos hstarved]
  · rw [if_neg hstarved, ← hsent]
    rcases hends with ⟨e, -, h⟩ | ⟨data, -, -, h⟩ | ⟨data, -, -, h⟩
    · rw [h]
    · rw [h]
    · rw [h]
      rfl

/-- What was queued for a clean channel is the packet just received, and
draining leaves nothing behind. -/
theorem drained_sent {data : List Byte} (hclean : k.Clean x.channel)
    (hr : k.answer (x.transaction s buffer room) = .ack data)
    (hx : x.direction = .toHost) (hlength : data.length < 2048) :
    drained x.channel room
        (k.sent (x.transaction s buffer room)).rxStatus
        (k.sent (x.transaction s buffer room)).rxFifo [] =
      (data.take room, []) := by
  obtain ⟨hstatus, hfifo⟩ := sent_queue_in hr hx
  have hchannel : (x.transaction s buffer room).channel = x.channel := rfl
  obtain ⟨hannounced, hdata⟩ := dataFor_packet x.channel hlength
  have hnone : dataFor x.channel k.rxStatus k.rxFifo = [] :=
    dataFor_eq_nil hclean.2 k.rxFifo
  rw [hstatus, hfifo, hchannel, drained_eq ?_ (Nat.zero_le _),
    dataFor_append _ _ _ hclean.1, hnone, hdata]
  · rfl
  · rw [announced_append, List.length_append, hannounced, hclean.1]

/-- An acknowledged IN exchange on a clean channel returns what the device has
sent, as far as there is room, and empties the receive queue. -/
theorem outcome_in {data : List Byte} (hclean : k.Clean x.channel)
    (hr : k.answer (x.transaction s buffer room) = .ack data)
    (hx : x.direction = .toHost) (hlength : data.length < 2048) :
    (k.outcome s x buffer room).1 =
        ⟨.ok (min room data.length),
          data.take room ++ buffer.drop (min room data.length)⟩ ∧
      (k.outcome s x buffer room).2.rxStatus = [] ∧
      (k.outcome s x buffer room).2.rxFifo = [] := by
  rcases outcome_cases k s x buffer room with
    ⟨hstarved, h⟩ | ⟨-, ⟨e, he, h⟩ | ⟨data', -, hx', h⟩ | ⟨data', hr', -, h⟩⟩
  · have hout := hstarved.1.1
    rw [hx] at hout
    exact nomatch hout
  · rw [hr] at he
    exact nomatch he
  · rw [hx] at hx'
    exact nomatch hx'
  · rw [h, drained_sent hclean hr hx hlength]
    refine ⟨?_, rfl, rfl⟩
    dsimp only
    rw [List.length_take]

/-- An OUT exchange that there is room for returns what was sent once it is
acknowledged, and leaves the receive queue alone. -/
theorem outcome_out {data : List Byte} (hfits : ¬ k.Starved x s room)
    (hr : k.answer (x.transaction s buffer room) = .ack data)
    (hx : x.direction = .toDevice) :
    (k.outcome s x buffer room).1 = ⟨.ok (x.requested s room), buffer⟩ := by
  rcases outcome_cases k s x buffer room with
    ⟨hstarved, h⟩ | ⟨-, ⟨e, he, h⟩ | ⟨data', -, hx', h⟩ | ⟨data', -, hx', h⟩⟩
  · exact absurd hstarved hfits
  · rw [hr] at he
    exact nomatch he
  · rw [h]
  · rw [hx] at hx'
    exact nomatch hx'

/-- A failed exchange leaves the buffer alone. -/
theorem outcome_error {e : TransferError}
    (h : (k.outcome s x buffer room).1.result = .error e) :
    (k.outcome s x buffer room).1 = ⟨.error e, buffer⟩ := by
  rcases outcome_cases k s x buffer room with
    ⟨-, h'⟩ | ⟨-, ⟨e', -, h'⟩ | ⟨data', -, -, h'⟩ | ⟨data', -, -, h'⟩⟩
  all_goals
    rw [h'] at h ⊢
    cases h
  · rfl
  · rfl

/-- An acknowledged exchange has put its transaction on the bus. -/
theorem answer_of_outcome_ok {n : Nat}
    (h : (k.outcome s x buffer room).1.result = .ok n) :
    ¬ k.Starved x s room ∧
      ∃ data, k.answer (x.transaction s buffer room) = .ack data := by
  rcases outcome_cases k s x buffer room with
    ⟨-, h'⟩ | ⟨hfits, ⟨e', -, h'⟩ | ⟨data, hr, -, -⟩ | ⟨data, hr, -, -⟩⟩
  · rw [h'] at h
    cases h
  · rw [h'] at h
    cases h
  · exact ⟨hfits, data, hr⟩
  · exact ⟨hfits, data, hr⟩

/-- An exchange that there is room for ends as its response says. -/
theorem outcome_result (hfits : ¬ k.Starved x s room)
    (buffer : List Byte) :
    ∃ n, (k.outcome s x buffer room).1.result =
      (k.answer (x.transaction s buffer room)).ending.map fun _ => n := by
  rcases outcome_cases k s x buffer room with
    ⟨hstarved, -⟩ | ⟨-, ⟨e, he, h⟩ | ⟨data, hr, -, h⟩ | ⟨data, hr, -, h⟩⟩
  · exact absurd hstarved hfits
  · exact ⟨0, by rw [h, he]; rfl⟩
  · exact ⟨_, by rw [h, hr]; rfl⟩
  · exact ⟨_, by rw [h, hr]; rfl⟩

/-- A refused exchange has been refused by the device. -/
theorem answer_of_outcome_nak
    (h : (k.outcome s x buffer room).1.result = .error .nak) :
    ¬ k.Starved x s room ∧
      k.answer (x.transaction s buffer room) = .nak := by
  rcases outcome_cases k s x buffer room with
    ⟨-, h'⟩ | ⟨hfits, ⟨e', he, h'⟩ | ⟨data, -, -, h'⟩ | ⟨data, -, -, h'⟩⟩
  all_goals
    rw [h'] at h
    cases h
  refine ⟨hfits, ?_⟩
  cases hr : k.answer (x.transaction s buffer room) with
  | nak => rfl
  | _ =>
    rw [hr] at he
    exact nomatch he

/-- What is clean stays clean, unless a packet is too large to be announced. -/
theorem outcome_clean {c : Channel} (hclean : k.Clean c)
    (hc : x.channel = c)
    (hlength : ∀ data, k.answer (x.transaction s buffer room) = .ack data →
      data.length < 2048) :
    (k.outcome s x buffer room).2.Clean c := by
  subst hc
  have hkept : (∀ data,
      k.answer (x.transaction s buffer room) = .ack data →
        x.direction = .toDevice) →
      (k.sent (x.transaction s buffer room)).Clean x.channel := by
    intro h
    obtain ⟨hstatus, hfifo⟩ := sent_queue (k := k) h
    unfold Controller.Clean Controller.InStep
    rw [hstatus, hfifo]
    exact hclean
  rcases outcome_cases k s x buffer room with
    ⟨-, h⟩ | ⟨-, ⟨e, he, h⟩ | ⟨data, -, hx, h⟩ | ⟨data, hr, hx, h⟩⟩
  · rw [h]
    exact hclean
  · rw [h]
    refine hkept fun data hr => ?_
    rw [hr] at he
    exact nomatch he
  · rw [h]
    exact hkept fun _ _ => hx
  · rw [h, drained_sent hclean hr hx (hlength data hr)]
    exact ⟨rfl, fun entry he => nomatch he⟩

end Outcome

end UsbHost.Simulation
