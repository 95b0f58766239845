import UsbHost.Bench.Environment
import UsbHost.Proofs.Driver.Withstands
import UsbHost.Proofs.Simulation.Accesses
import UsbHost.Proofs.Simulation.Outcome

/-!
# What earlier transfers leave behind

A transfer that is given up may leave its data in the receive queue, where the
next transfer finds it.  The driver tells packets apart by their channel alone:
what was left for another channel is dropped, but what was left for the same
channel goes to the front of the buffer, ahead of the packet that the device has
just sent.

## Main results

* `always_launch` — an IN transfer queues what the device acknowledges it with
  behind what was there.
* `residue_comes_first` — where the data of a channel goes, for any content of
  the queue and on any machine that shows its queue: to the buffer of the
  transfer that succeeds, or to that of the next one.
-/

namespace UsbHost.Simulation

open Run

variable {σ : Type} {host : Host σ} {view : σ → Option Controller}
  {genuine : Register → Prop} {k : Controller} {w : World Register σ}
  {x : Exchange} {link : Link} {buffer : List Byte} {room : Nat}

/-! ## Accesses that put nothing on the bus -/

/-- A channel is prepared and brought to rest without anything being put on the
bus. -/
theorem tends_still (h : Overlay host.core view genuine)
    {P : Controller → Prop} (hP : ∀ k' k'', P k' → Still k' k'' → P k'')
    (c : Channel) : host.Tends c (Shows view P) := by
  have hwrite : ∀ r v, (∀ k : Controller, Still k (k.write r v)) →
      Preserves (Shows view P) (host.core.write r v) :=
    fun r v hstill => h.preserves_write fun k hk => hP _ _ hk (hstill k)
  have hread : ∀ r, Register.Common r →
      Preserves (Shows view P) (host.core.read r) := by
    intro r hr
    refine h.preserves_read fun k hk => hP _ _ hk (read_still ?_ ?_)
    · rintro rfl
      exact hr
    · rintro c rfl
      exact hr
  exact
    { toTimeless := h.timeless P
      read := hread
      frame := fun _ => hwrite _ _ fun _ => ⟨rfl, rfl, rfl, rfl⟩
      split := hwrite _ _ fun _ => still_writeChannel _ _ (by nofun)
      clear := hwrite _ _ fun _ => still_writeChannel _ _ (by nofun)
      halt := fun chars => hwrite _ _ fun _ => still_disable c chars }

/-! ## The packet -/

/-- The queue holds what the acknowledged packet has added to it. -/
def Controller.received (k : Controller) (c : Channel) (payload : List Byte) :
    Controller :=
  (k.queuePacket (BitVec.ofNat 4 c.val) payload).queueCompletion
    (BitVec.ofNat 4 c.val)

/-- The receive queues of the two controllers are the same. -/
def SameQueue (k k' : Controller) : Prop :=
  k'.rxStatus = k.rxStatus ∧ k'.rxFifo = k.rxFifo

theorem SameQueue.still (k' k'' : Controller) (h : SameQueue k k')
    (hk : Still k' k'') : SameQueue k k'' :=
  ⟨hk.rxStatus.trans h.1, hk.rxFifo.trans h.2⟩

/-- Nothing has been on the bus, and the channel has the transfer size of the
exchange. -/
def Sized (x : Exchange) (link : Link) (room : Nat) (k k' : Controller) :
    Prop :=
  Still k k' ∧ (k'.channel x.channel).size =
    (x.transferSize (BitVec.ofNat 19 (x.requested link room))).raw

/-- Enabling the channel of an IN transfer puts its transaction on the bus, and
what the device acknowledges it with is queued. -/
theorem sameQueue_enabled {payload : List Byte} {k' : Controller}
    (hk : Sized x link room k k') (hx : x.direction = .toHost)
    (oddFrame : Bool)
    (hack : k.answer (x.transaction link buffer room) = .ack payload) :
    SameQueue (k.received x.channel payload)
      (k'.write (.channel x.channel .characteristics)
        (ChannelCharacteristics.enable.set true
          (x.characteristics link oddFrame)).raw) := by
  obtain ⟨hk, hsize⟩ := hk
  have hin : ¬ x.Sends link room := by
    intro hsends
    exact nomatch hx.symm.trans hsends.1
  obtain ⟨s', -, hbeside⟩ :=
    (Beside.refl x.channel k').enabled oddFrame hsize
  rw [if_neg hin, ← Exchange.transaction_of_not_sends hin buffer] at hbeside
  obtain ⟨t, ht⟩ : ∃ t, x.transaction link buffer room = t := ⟨_, rfl⟩
  have hdirection : t.direction = .toHost := by rw [← ht]; exact hx
  have hsent : k'.sent t = k'.carried t := by
    refine if_neg fun hout => ?_
    exact nomatch hdirection.symm.trans hout.1
  have hanswer : k'.answer t = .ack payload := by
    rw [← ht]
    unfold Controller.answer
    rw [hk.device]
    exact hack
  obtain ⟨hstatus, hfifo⟩ := sent_queue_in hanswer hdirection
  rw [ht] at hbeside
  obtain ⟨writes, frame, hwritten⟩ := hbeside
  rw [hwritten]
  constructor
  · show (k'.carried t).rxStatus = _
    rw [← hsent, hstatus, hk.rxStatus, ← ht]
    exact (List.append_assoc k.rxStatus [_] [_]).symm
  · show (k'.carried t).rxFifo = _
    rw [← hsent, hfifo, hk.rxFifo]
    rfl

/-- Launching an IN transfer queues what the device acknowledges it with. -/
theorem always_launch (h : Overlay host.core view genuine)
    {payload : List Byte} (hx : x.direction = .toHost) (oddFrame : Bool)
    (hack : k.answer (x.transaction link buffer room) = .ack payload)
    (hw : Shows view (Still k) w) :
    (host.launch x (x.characteristics link oddFrame)
      (x.requested link room) buffer).Always w
        (fun _ => Shows view (SameQueue (k.received x.channel payload)))
        fun _ => True := by
  have hsize : ∀ k', Still k k' → Sized x link room k (k'.write
      (.channel x.channel .transferSize)
      (x.transferSize (BitVec.ofNat 19 (x.requested link room))).raw) :=
    fun k' hk => ⟨hk.trans (still_writeChannel _ _ (by nofun)),
      congrArg ChannelState.size (Controller.channel_updateChannel_self ..)⟩
  have hbarrier : ∀ {P : Controller → Prop} {w}, Shows view P w →
      host.core.barrier.Always w (fun _ => Shows view P) fun _ => True :=
    fun hw => (h.preserves_barrier _ _ hw).weaken fun _ _ => trivial
  unfold Host.launch
  rw [Run.narrow_eq (x.toNat_requested link room), pure_bind]
  refine (h.always_write hsize hw).bind fun _ w hw => ?_
  refine (hbarrier hw).bind fun _ w hw => ?_
  refine (h.always_write (fun k' hk =>
    sameQueue_enabled hk hx oddFrame hack) hw).bind fun _ w hw => ?_
  refine (hbarrier hw).bind fun _ w hw => ?_
  have hin : ¬ x.direction = .toDevice := by
    rw [hx]
    exact nofun
  rw [if_neg hin]
  exact .pure hw

/-- What a transfer comes to that finds this queue when it has ended: the queue
is in the buffer, or it is still there. -/
def Settles (view : σ → Option Controller) (k : Controller) (x : Exchange)
    (buffer : List Byte) (room : Nat) (moved : Moved TransferError)
    (w : World Register σ) : Prop :=
  match moved.result with
  | .ok n =>
    let received := (drained x.channel room k.rxStatus k.rxFifo []).1
    n = received.length ∧
      moved.buffer = received ++ buffer.drop received.length
  | .error _ => moved.buffer = buffer ∧ Shows view (SameQueue k) w

/-- Watching the channel of an IN transfer settles what the queue holds,
whatever its interrupts are made to say. -/
theorem yields_await (h : Overlay host.core view genuine)
    (hqueue : QueueGenuine genuine) (hx : x.direction = .toHost)
    {requested : Nat} (hw : Shows view (SameQueue k) w) :
    (host.await x requested buffer room).Yields False w
      (Settles view k x buffer room) := by
  have htends : host.Tends x.channel (Shows view (SameQueue k)) :=
    tends_still h SameQueue.still x.channel
  refine (htends.deadlineAfter _ w hw).yields.bind fun deadline w hw => ?_
  refine .loop (fun _ => Shows view (SameQueue k)) (fun _ _ => 0) ?_ hw
  intro _ w hw
  refine (htends.load _ (by trivial) w hw).yields.bind ?_
  intro interrupts w hw
  split
  · rw [hx]
    obtain ⟨k', hk, hstatus, hfifo⟩ := hw
    refine (yields_drain h hqueue hk).bind ?_
    rintro _ w' ⟨rfl, -⟩
    refine .bind_any fun _ w'' => .pure ?_
    rw [hstatus, hfifo]
    exact ⟨rfl, rfl⟩
  · exact (htends.clear w hw).yields.bind fun _ w hw => .pure ⟨rfl, hw⟩
  · refine (htends.expired deadline w hw).yields.bind fun late w hw => ?_
    cases late with
    | true =>
      exact (htends.quiesce w hw).yields.bind fun _ w hw => .pure ⟨rfl, hw⟩
    | false => exact .pure ⟨hw, False.elim⟩

/-- An IN transfer whose transaction the device acknowledges settles what was in
the queue before, and the payload behind it. -/
theorem yields_transfer (h : Overlay host.core view genuine)
    (hqueue : QueueGenuine genuine) {payload : List Byte} {length : Nat}
    (hx : x.direction = .toHost) (hroom : min length buffer.length = room)
    (hack : k.answer (x.transaction link buffer room) = .ack payload)
    (hk : view w.env = some k) :
    (host.transfer link x buffer length).Yields False w
      (Settles view (k.received x.channel payload) x buffer room) := by
  have htends : host.Tends x.channel (Shows view (Still k)) :=
    tends_still h (fun _ _ => Still.trans) x.channel
  have hstart : Shows view (Still k) w := ⟨k, hk, .refl k⟩
  have hoffer : ∀ w, Shows view (Still k) w →
      (host.offer link x buffer room).Yields False w
        (Settles view (k.received x.channel payload) x buffer room) := by
    intro w hw
    refine (htends.split w hw).yields.bind fun _ w hw => ?_
    refine (htends.load _ (by trivial) w hw).yields.bind fun frame w hw => ?_
    refine (htends.clear w hw).yields.bind fun _ w hw => ?_
    have hin : ¬ (x.direction = .toDevice ∧ 0 < x.requested link room) := by
      rw [hx]
      exact fun hout => nomatch hout.1
    simp only [if_neg hin, pure_bind]
    refine (always_launch h hx _ hack hw).yields.bind fun _ w hw => ?_
    exact yields_await h hqueue hx hw
  rw [host.transfer_eq, hroom]
  refine (htends.quiesce w hstart).yields.bind fun _ w hw => ?_
  dsimp only
  split
  · exact (htends.awaitFrame w hw).yields.bind fun _ w hw => hoffer w hw
  · exact hoffer w hw

/-! ## Where the data goes -/

/-- A packet that can be announced is queued in step, behind what there is for
the channel. -/
theorem received_inStep {c : Channel} {payload : List Byte} (hstep : k.InStep)
    (hpayload : payload.length < 2048) :
    (k.received c payload).InStep ∧
      dataFor c (k.received c payload).rxStatus (k.received c payload).rxFifo =
        dataFor c k.rxStatus k.rxFifo ++ payload := by
  obtain ⟨hannounced, hdata⟩ := dataFor_packet c hpayload
  have hstatus : (k.received c payload).rxStatus = k.rxStatus ++
      [queueEntry (BitVec.ofNat 4 c.val) payload.length .inData,
        queueEntry (BitVec.ofNat 4 c.val) 0 .inTransferComplete] :=
    List.append_assoc k.rxStatus [_] [_]
  have hfifo : (k.received c payload).rxFifo =
      k.rxFifo ++ packetWords payload := rfl
  unfold Controller.InStep at hstep ⊢
  rw [hstatus, hfifo]
  constructor
  · rw [announced_append, List.length_append, hannounced, hstep]
  · rw [dataFor_append c _ _ hstep, hdata]

/-- What fits of one list is what fits of another just if as much of it is
stored. -/
theorem take_eq_take_iff_stored {found payload rest : List Byte} {room n : Nat}
    (hn : n = min room found.length) :
    (n = min room payload.length ∧
        found.take n ++ rest = payload.take n ++ rest) ↔
      found.take room = payload.take room := by
  have hfound : found.take room = found.take n := by
    rw [hn]
    exact List.take_eq_take_min
  constructor
  · intro ⟨hpayload, hstored⟩
    rw [hfound, List.append_cancel_right hstored, hpayload]
    exact List.take_eq_take_min.symm
  · intro htake
    have hpayload : n = min room payload.length := by
      rw [hn, ← List.length_take, htake, List.length_take]
    refine ⟨hpayload, ?_⟩
    rw [← hfound, htake, hpayload, ← List.take_eq_take_min]

/-- An IN transfer that the device acknowledges stores what was left for its
channel and the payload behind that, as far as there is room.  The payload alone
is stored just if nothing was left, or nothing that makes a difference.  If the
transfer fails all the same, its payload is left for the next one. -/
theorem residue_comes_first (h : Overlay host.core view genuine)
    (hqueue : QueueGenuine genuine) {payload : List Byte}
    {length patience : Nat} {moved : Moved TransferError}
    {w' : World Register σ} (hk : view w.env = some k) (hstep : k.InStep)
    (hx : x.direction = .toHost)
    (hack : k.answer (x.transaction link buffer (min length buffer.length)) =
      .ack payload)
    (hpayload : payload.length < 2048)
    (hrun : host.transfer link x buffer length patience w = .ok moved w') :
    let room := min length buffer.length
    let residue := dataFor x.channel k.rxStatus k.rxFifo
    (∀ n, moved.result = .ok n →
      n = min room (residue.length + payload.length) ∧
      moved.buffer = (residue ++ payload).take n ++ buffer.drop n ∧
      (n = min room payload.length ∧
          moved.buffer = payload.take n ++ buffer.drop n ↔
        (residue ++ payload).take room = payload.take room)) ∧
    (∀ e, moved.result = .error e → moved.buffer = buffer ∧
      ∃ k', view w'.env = some k' ∧ k'.InStep ∧
        dataFor x.channel k'.rxStatus k'.rxFifo = residue ++ payload) ∧
    ((∀ entry ∈ k.rxStatus, ¬ IsDataFor x.channel entry) → residue = []) := by
  intro room residue
  obtain ⟨hinStep, hdata⟩ :=
    received_inStep (c := x.channel) hstep hpayload
  have hsettles := (yields_transfer h hqueue hx rfl hack hk).1 _ _ _ hrun
  unfold Settles at hsettles
  refine ⟨fun n hn => ?_, fun e he => ?_, fun hnone => dataFor_eq_nil hnone _⟩
  · rw [hn] at hsettles
    have hstored : (drained x.channel room
        (k.received x.channel payload).rxStatus
        (k.received x.channel payload).rxFifo []).1 =
          (residue ++ payload).take room := by
      rw [drained_eq hinStep (Nat.zero_le _), hdata]
      rfl
    obtain ⟨hcount, hbuffer⟩ := hsettles
    rw [hstored] at hcount hbuffer
    have hlength : n = min room (residue.length + payload.length) := by
      rw [hcount, List.length_take, List.length_append]
    have htake : (residue ++ payload).take n =
        (residue ++ payload).take room := by
      rw [hlength, ← List.length_append, ← List.take_eq_take_min]
    have hends :
        moved.buffer = (residue ++ payload).take n ++ buffer.drop n := by
      rw [hbuffer, htake, hcount]
    refine ⟨hlength, hends, ?_⟩
    rw [hends]
    refine take_eq_take_iff_stored ?_
    rw [hlength, List.length_append]
  · rw [he] at hsettles
    obtain ⟨hbuffer, k', hk', hstatus, hfifo⟩ := hsettles
    refine ⟨hbuffer, k', hk', ?_, ?_⟩
    · unfold Controller.InStep
      rw [hstatus, hfifo]
      exact hinStep
    · rw [hstatus, hfifo]
      exact hdata

/-- A core at rest whose device has two reports. -/
def twoReports : Controller :=
  { device := { reports := [[1, 2, 3, 4, 5, 6], [7, 8, 9]] } }

/-- A bench on which the interrupts of the second channel read as none. -/
def deafBench : World Register (Bench.Environment × Bench.TickingClock) :=
  ⟨({ target := .simulated twoReports
      overrides := { sticky := [(0x528, 0)] } }, {}), []⟩

theorem view_deafBench :
    benchView (fun r => r ≠ .channel .interrupt .interrupts) deafBench.env =
      some twoReports := by
  refine benchView_eq_some_iff.2 ⟨rfl, fun r hr => ?_⟩
  have hne : r.offset ≠ 0x528 := fun h =>
    hr (Register.offset_injective (s := .channel .interrupt .interrupts) h)
  exact take?_eq_none_iff.2 ⟨nofun, by simp [deafBench, hne]⟩

/-- The bench with all its registers read as they are. -/
def unscripted (w : World Register (Bench.Environment × Bench.TickingClock)) :
    World Register (Bench.Environment × Bench.TickingClock) :=
  { w with env := ({ w.env.1 with overrides := {} }, w.env.2) }

/-- The report of a transfer that is given up comes first in the buffer of the
next one. -/
theorem given_up_report_first :
    let host : Host (Bench.Environment × Bench.TickingClock) :=
      ⟨Bench.machine false, { transferTimeout := .zero }⟩
    let x : Exchange :=
      { channel := .interrupt, endpoint := 1, direction := .toHost,
        type := .interrupt, pid := .data0 }
    let buffer : List Byte := List.replicate 12 0
    ∃ moved w₁ moved' w₂,
      host.transfer {} x buffer 12 8 deafBench = .ok moved w₁ ∧
      moved.result = .error .timeout ∧
      host.transfer {} x buffer 12 8 (unscripted w₁) = .ok moved' w₂ ∧
      moved'.result = .ok 9 ∧
      moved'.buffer = [1, 2, 3, 4, 5, 6, 7, 8, 9, 0, 0, 0] := by
  intro host x buffer
  have hreturns : (host.transfer {} x buffer 12).returns 8 deafBench
      (fun moved w₁ => decide (moved.result = .error .timeout) &&
        (host.transfer {} x buffer 12).returns 8 (unscripted w₁)
          fun moved' _ => decide (moved'.result = .ok 9 ∧
            (benchView (fun _ => True) (unscripted w₁).env).map
              (·.answer (x.transaction {} buffer 12)) =
                some (.ack [7, 8, 9]))) = true := by
    decide +kernel
  have hack : twoReports.answer (x.transaction {} buffer 12) =
      .ack [1, 2, 3, 4, 5, 6] := by decide +kernel
  obtain ⟨moved, w₁, hfirst, hreturns⟩ := exists_of_returns hreturns
  obtain ⟨hgaveUp, hreturns⟩ := Bool.and_eq_true_iff.1 hreturns
  obtain ⟨moved', w₂, hsecond, hends⟩ := exists_of_returns hreturns
  have hgaveUp := of_decide_eq_true hgaveUp
  obtain ⟨hok, hanswer⟩ := of_decide_eq_true hends
  obtain ⟨k, hunscripted, hack'⟩ := Option.map_eq_some_iff.1 hanswer
  have hgenuine : QueueGenuine fun r => r ≠ .channel .interrupt .interrupts :=
    ⟨by decide, by decide, fun c => by simp⟩
  obtain ⟨-, hgivenUp, -⟩ := residue_comes_first (.bench false _) hgenuine
    view_deafBench rfl rfl hack (by decide) hfirst
  obtain ⟨-, k', hview, hstep, hresidue⟩ := hgivenUp _ hgaveUp
  obtain rfl : k = k' := by
    have htarget := (benchView_eq_some_iff.1 hunscripted).1
    exact Bench.Target.simulated.inj
      (htarget.symm.trans (benchView_eq_some_iff.1 hview).1)
  obtain ⟨hstored, -, -⟩ := residue_comes_first (.bench false _)
    ⟨trivial, trivial, fun _ => trivial⟩ hunscripted hstep rfl hack'
    (by decide) hsecond
  obtain ⟨-, hbuffer, -⟩ := hstored 9 hok
  refine ⟨_, w₁, _, w₂, hfirst, hgaveUp, hsecond, hok, ?_⟩
  rw [hbuffer, hresidue]
  decide

end UsbHost.Simulation
