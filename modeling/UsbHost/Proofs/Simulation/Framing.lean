import UsbHost.Bench.Environment
import UsbHost.Proofs.Driver.Withstands
import UsbHost.Proofs.Simulation.Accesses
import UsbHost.Proofs.Simulation.Standing

/-!
# The receive queue stays in step

The receive queue has no marks between its packets: how many words belong to a
packet is known from its entry alone.  A word too many or too few would shift
every packet behind it, so the words have to stay in step with the entries
whatever the driver does, and no more may be taken off the queue than is there.

## Main results

* `framed_write`, `withstandsAll_framed` — no access puts the queue out of
  step.
* `transfer_empties` — what an IN transfer leaves behind.
* `framing_kept` — any number of operations, with packets that nobody asked for
  between them.
-/

namespace UsbHost.Simulation

open Run

variable {τ : Type} {clock : Clock τ} {settings : Settings}

/-! ## What a device can send -/

/-- No packet of the device is too large to be announced. -/
structure Device.Modest (d : Device) : Prop where
  reports : ∀ report ∈ d.reports, report.length < 2048
  forced : ∀ data, d.forced = some (.ack data) → data.length < 2048

namespace Device

variable {d : Device}

theorem apply_reports (d : Device) (setup : SetupPacket) :
    (d.apply setup).reports = d.reports := by
  unfold apply
  dsimp only
  split
  · rfl
  · split
    · rfl
    · split <;> rfl

/-- A control transaction changes neither the reports nor what the device is
forced to. -/
theorem controlTransaction_keeps (t : Transaction) :
    (d.controlTransaction t).2.reports = d.reports ∧
      (d.controlTransaction t).2.forced = d.forced := by
  unfold controlTransaction
  split
  · unfold beginControl
    split <;> exact ⟨rfl, rfl⟩
  · split
    · exact ⟨rfl, rfl⟩
    · split
      · exact ⟨rfl, rfl⟩
      · split
        · unfold controlStatus
          split
          · exact ⟨rfl, rfl⟩
          · exact ⟨apply_reports _ _, apply_forced _ _⟩
        · unfold controlData
          split <;> exact ⟨rfl, rfl⟩

/-- A modest device answers with packets that can be announced, and stays
modest. -/
theorem Modest.respond (h : d.Modest) (t : Transaction) :
    (d.respond t).2.Modest ∧
      ∀ data, (d.respond t).1 = .ack data → data.length < 2048 := by
  rcases Option.eq_none_or_eq_some d.forced with hf | ⟨response, hf⟩
  · unfold Device.respond
    rw [hf]
    dsimp only
    split
    · exact ⟨h, fun _ => nofun⟩
    · split
      · exact ⟨⟨h.reports, fun _ => nofun⟩, fun _ => nofun⟩
      · split
        · obtain ⟨hreports, hforced⟩ := d.controlTransaction_keeps t
          refine ⟨⟨?_, ?_⟩, fun data hdata => ?_⟩
          · rw [hreports]
            exact h.reports
          · rw [hforced]
            exact h.forced
          · have hpacket := t.maxPacket.isLt
            rcases d.controlTransaction_response t with ⟨u, hu, hle⟩ | hu | hu
            · rw [hu] at hdata
              cases hdata
              omega
            · rw [hu] at hdata
              exact nomatch hdata
            · rw [hu] at hdata
              exact nomatch hdata
        · split
          · have hall := h.reports
            cases hr : d.reports with
            | nil => exact ⟨h, fun _ => nofun⟩
            | cons report rest =>
              rw [hr] at hall
              constructor
              · exact ⟨fun r hmem => hall r (List.mem_cons_of_mem _ hmem),
                  fun _ => nofun⟩
              · intro data hdata
                cases hdata
                exact hall report List.mem_cons_self
          · exact ⟨h, fun _ => nofun⟩
  · rw [respond_of_forced d hf]
    exact ⟨h, fun data hdata => h.forced data (hf ▸ congrArg some hdata)⟩

end Device

/-! ## Accesses -/

/-- The receive queue is in step, and the device keeps it so. -/
structure Controller.Framed (k : Controller) : Prop where
  inStep : k.InStep
  modest : k.device.Modest

section Accesses

variable {k : Controller}

/-- What concerns neither the receive queue nor the device. -/
theorem Controller.Framed.still {k' : Controller} (h : k.Framed)
    (hk : Still k k') : k'.Framed := by
  constructor
  · unfold Controller.InStep
    rw [hk.rxStatus, hk.rxFifo]
    exact h.inStep
  · rw [hk.device]
    exact h.modest

/-- A packet that can be announced is queued in step. -/
theorem inStep_queuePacket (h : k.InStep) (channel : BitVec 4)
    {data : List Byte} (hdata : data.length < 2048) :
    (k.queuePacket channel data).InStep := by
  obtain ⟨-, hcount, hstatus⟩ := queueEntry_fields channel .inData hdata
  unfold Controller.InStep at h ⊢
  simp [Controller.queuePacket, announced_append, announced, entryWords,
    hcount, hstatus, length_packetWords, h]

theorem inStep_queueCompletion (h : k.InStep) (channel : BitVec 4) :
    (k.queueCompletion channel).InStep := by
  obtain ⟨-, -, hstatus⟩ :=
    queueEntry_fields channel .inTransferComplete (show 0 < 2048 by decide)
  unfold Controller.InStep at h ⊢
  simp [Controller.queueCompletion, announced_append, announced, entryWords,
    hstatus, h]

theorem framed_execute (h : k.Framed) (t : Transaction) :
    (k.execute t).Framed := by
  obtain ⟨hmodest, hlength⟩ := h.modest.respond t
  obtain ⟨-, hdevice, hqueue⟩ := execute_cases (k := k) t
  refine ⟨?_, hdevice ▸ hmodest⟩
  unfold Controller.InStep
  rcases hqueue with ⟨data, hack, -, hstatus, hfifo⟩ | ⟨-, hstatus, hfifo⟩
  · have hpacket := (dataFor_packet t.channel (hlength data hack)).1
    rw [hstatus, hfifo, announced_append, List.length_append, hpacket,
      h.inStep]
  · rw [hstatus, hfifo]
    exact h.inStep

/-- A bus reset takes no report from the device. -/
theorem framed_writePort (h : k.Framed) (v : HostPort) :
    (k.writePort v).Framed := by
  unfold Controller.writePort
  dsimp only
  split
  · exact ⟨h.inStep, h.modest⟩
  · split
    · exact ⟨h.inStep, h.modest.reports, h.modest.forced⟩
    · exact ⟨h.inStep, h.modest⟩

/-- No write puts the queue out of step. -/
theorem framed_write (h : k.Framed) (r : Register) (v : Word) :
    (k.write r v).Framed := by
  by_cases hr : r = .port
  · subst hr
    have hcounted : ({ k with writes := k.writes + 1 } : Controller).Framed :=
      h.still ⟨rfl, rfl, rfl, rfl⟩
    exact framed_writePort hcounted ⟨v⟩
  · rcases write_cases (k := k) hr v with hstill | ⟨k₁, t, hstill, hk⟩
    · exact h.still hstill
    · rw [hk]
      exact framed_execute (h.still hstill) t

end Accesses

/-! ## Popping -/

/-- What an event does to the controller. -/
def Controller.after (k : Controller) : Event Register → Controller
  | .read r _ => (k.read r).2
  | .write r v => k.write r v
  | _ => k

/-- The event takes something off the receive queue that is not there. -/
def PopsEmpty (k : Controller) : Event Register → Prop
  | .read .rxStatusPop _ => k.rxStatus = []
  | .read (.fifo _) _ => k.rxFifo = []
  | _ => False

/-- The events, the latest one first, lead from one controller to the other,
and nothing is ever taken off an empty queue. -/
inductive Replays (k : Controller) : List (Event Register) → Controller → Prop
    where
  | start : Replays k [] k
  | event {events : List (Event Register)} {k' : Controller}
      (e : Event Register) :
    Replays k events k' → ¬ PopsEmpty k' e →
    Replays k (e :: events) (k'.after e)

/-- The world has come from the controller `k` and the log it had, and its
receive queue satisfies `P`. -/
structure Replayed (k : Controller) (log : List (Event Register))
    (P : Controller → Prop) (w : World Register (Controller × τ)) : Prop where
  replays : ∃ events, w.log = events ++ log ∧ Replays k events w.env.1
  now : P w.env.1

section Popping

variable {k : Controller} {log : List (Event Register)}
  {P Q : Controller → Prop} {w : World Register (Controller × τ)}

/-- One more event. -/
theorem Replayed.event (h : Replayed k log P w) (e : Event Register)
    (he : ¬ PopsEmpty w.env.1 e) (hQ : Q (w.env.1.after e)) (t : τ) :
    Replayed k log Q ⟨(w.env.1.after e, t), e :: w.log⟩ := by
  obtain ⟨events, hlog, hreplays⟩ := h.replays
  refine ⟨⟨e :: events, ?_, hreplays.event e he⟩, hQ⟩
  rw [hlog, List.cons_append]

/-- What does not show in the controller. -/
theorem Replayed.timed (h : Replayed k log P w) {e : Event Register}
    (he : ∀ k' : Controller, k'.after e = k' ∧ ¬ PopsEmpty k' e) (t : τ) :
    Replayed k log P ⟨(w.env.1, t), e :: w.log⟩ := by
  obtain ⟨hsame, hpops⟩ := he w.env.1
  have hafter := h.event (Q := P) e hpops (hsame.symm ▸ h.now) t
  rwa [hsame] at hafter

/-- The queue has these entries and so many words, and the device is `d`. -/
def Holds (entries : List Word) (words : Nat) (d : Device) (k : Controller) :
    Prop :=
  k.rxStatus = entries ∧ k.rxFifo.length = words ∧ k.device = d

/-- Taking words off a queue that has them. -/
theorem always_takePacket {c : Channel} {keep rest words : Nat}
    {stored : List Byte} {entries : List Word} {d : Device}
    (h : Replayed k log (Holds entries (words + rest) d) w) :
    ((hostOn clock settings).takePacket c keep words stored).Always w
      (fun _ => Replayed k log (Holds entries rest d)) fun _ => False := by
  induction words generalizing w stored with
  | zero =>
    rw [Nat.zero_add] at h
    exact .pure h
  | succ words ih =>
    obtain ⟨hentries, hlength, hdevice⟩ := h.now
    have hnonempty : w.env.1.rxFifo ≠ [] := by
      intro hnil
      rw [hnil, List.length_nil] at hlength
      omega
    have hleft : w.env.1.rxFifo.tail.length = words + rest := by
      rw [List.length_tail]
      omega
    have hload : ((hostOn clock settings).core.load (.fifo c)).Always w
        (fun _ => Replayed k log (Holds entries (words + rest) d))
        fun _ => False :=
      .of_eq (fun _ => rfl)
        (h.event (.read (.fifo c) _) hnonempty ⟨hentries, hleft, hdevice⟩ _)
    exact hload.bind fun _ _ hw => ih hw

/-- Draining takes just what the queue has. -/
theorem preserves_drain_framed (c : Channel) (room : Nat) :
    Preserves (Replayed k log Controller.Framed)
      ((hostOn clock settings).drain c room) := by
  refine .loop (fun stored w hw => ?_) []
  have hlevel : ((hostOn clock settings).core.load .interruptStatus).Always w
      (fun status w' => Replayed k log Controller.Framed w' ∧
        status.contains CoreInterrupts.rxFifoLevel =
          !w'.env.1.rxStatus.isEmpty)
      (Replayed k log Controller.Framed) :=
    .of_eq (fun _ => rfl) ⟨hw.timed (fun _ => ⟨rfl, id⟩) _,
      contains_rxFifoLevel w.env.1⟩
  refine hlevel.bind fun status w ⟨hw, hstatus⟩ => ?_
  rw [hstatus]
  cases hentries : w.env.1.rxStatus with
  | nil => exact .pure hw
  | cons entry rest =>
    obtain ⟨hstep, hmodest⟩ := hw.now
    unfold Controller.InStep at hstep
    rw [hentries, announced] at hstep
    have hnonempty : w.env.1.rxStatus ≠ [] := by
      rw [hentries]
      exact List.cons_ne_nil entry rest
    have htail : w.env.1.rxStatus.tail = rest := by
      rw [hentries, List.tail_cons]
    have hhead : w.env.1.rxStatus.headD 0 = entry := by
      rw [hentries, List.headD_cons]
    have hpop : ((hostOn clock settings).core.load .rxStatusPop).Always w
        (fun e w' => e = ⟨entry⟩ ∧ Replayed k log (Holds rest
          (entryWords entry + announced rest) w.env.1.device) w')
        (Replayed k log Controller.Framed) :=
      .of_eq (fun _ => rfl) ⟨congrArg RxStatus.mk hhead,
        hw.event (.read .rxStatusPop _) hnonempty ⟨htail, hstep, rfl⟩ _⟩
    have hframed : ∀ w' : World Register (Controller × τ),
        Replayed k log (Holds rest (announced rest) w.env.1.device) w' →
        Replayed k log Controller.Framed w' := by
      intro w' hw'
      obtain ⟨hreplays, hstatus, hfifo, hdevice⟩ := hw'
      refine ⟨hreplays, ?_, hdevice.symm ▸ hmodest⟩
      unfold Controller.InStep
      rw [hstatus, hfifo]
    refine hpop.bind fun e w' hpopped => ?_
    obtain ⟨rfl, hw'⟩ := hpopped
    by_cases hin : RxStatus.packetStatus.get ⟨entry⟩ = .inData
    · have hcount : wordCount (RxStatus.byteCount.get ⟨entry⟩).toNat =
          entryWords entry := by
        simp [entryWords, hin]
      rw [if_neg (not_not_intro hin)]
      simp only [hcount]
      refine ((always_takePacket hw').weaken fun _ => False.elim).bind ?_
      exact fun _ w'' hw'' => .pure (hframed w'' hw'')
    · have hnone : entryWords entry = 0 := by simp [entryWords, hin]
      rw [hnone, Nat.zero_add] at hw'
      rw [if_pos hin]
      exact .pure (hframed w' hw')

end Popping

/-! ## Operations -/

/-- No access of the driver puts the queue out of step or takes from it what is
not there. -/
theorem withstandsAll_framed (k : Controller) (log : List (Event Register)) :
    (hostOn clock settings).WithstandsAll
      (Replayed k log Controller.Framed) := by
  have hread : ∀ r : Register, r.Common ∨ r = .port →
      Preserves (Replayed k log Controller.Framed)
        ((hostOn clock settings).core.read r) := by
    intro r hr w hw
    have hstatus : r ≠ .rxStatusPop := by
      intro h
      subst h
      rcases hr with hr | hr
      · exact hr
      · exact nomatch hr
    have hfifo : ∀ c, r ≠ .fifo c := by
      intro c h
      subst h
      rcases hr with hr | hr
      · exact hr
      · exact nomatch hr
    refine .of_eq (fun _ => rfl) (hw.event (.read r _) ?_
      (hw.now.still (read_still hstatus hfifo)) _)
    cases r with
    | rxStatusPop => exact absurd rfl hstatus
    | fifo c => exact absurd rfl (hfifo c)
    | _ => exact id
  have hload : Preserves (Replayed k log Controller.Framed)
      ((hostOn clock settings).core.load .port) :=
    (hread _ (.inr rfl)).bind fun _ => .pure _
  have hwrite : ∀ r v, Preserves (Replayed k log Controller.Framed)
      ((hostOn clock settings).core.write r v) :=
    fun r v w hw => .of_eq (fun _ => rfl)
      (hw.event (.write r v) id (framed_write hw.now r v) _)
  refine
    { now := fun w hw => .of_eq (fun _ => rfl) (hw.timed (fun _ => ⟨rfl, id⟩) _)
      skip := fun f d w hf hw => ?_
      barrier := fun w hw =>
        .of_eq (fun _ => rfl) (hw.timed (fun _ => ⟨rfl, id⟩) _)
      read := fun r hr => hread r (.inl hr)
      write := fun r v _ => hwrite r v
      drain := preserves_drain_framed
      readPort := hread _ (.inr rfl)
      updatePort := fun change => hload.bind fun port => hwrite _ _
      acknowledgePort := fun changes => hload.bind fun port => hwrite _ _ }
  obtain ⟨g, -, rfl⟩ := Option.map_eq_some_iff.1 hf
  exact hw.timed (fun _ => ⟨rfl, id⟩) _

/-- An IN transfer that succeeds has emptied the receive queue, whether or not
there was room for what it found there. -/
theorem transfer_empties {link : Link} {x : Exchange} {buffer : List Byte}
    {length patience n : Nat} {w w' : World Register (Controller × τ)}
    {moved : Moved TransferError} (h : w.env.1.Framed)
    (hx : x.direction = .toHost)
    (hrun : (hostOn clock settings).transfer link x buffer length patience w =
      .ok moved w')
    (hok : moved.result = .ok n) :
    w'.env.1.rxStatus = [] ∧ w'.env.1.rxFifo = [] := by
  obtain ⟨room, hroom⟩ : ∃ room, min length buffer.length = room := ⟨_, rfl⟩
  obtain ⟨rfl, s, -, -, writes, frame, hk'⟩ :=
    (leads_transfer (T := False) hroom False.elim).of_run rfl hrun
  have hqueue : (w.env.1.outcome link x buffer room).2.rxStatus = [] ∧
      (w.env.1.outcome link x buffer room).2.rxFifo = [] := by
    rcases outcome_cases w.env.1 link x buffer room with
      ⟨-, ho⟩ | ⟨-, ⟨e, -, ho⟩ | ⟨data, -, hout, -⟩ | ⟨data, hack, -, ho⟩⟩
    · rw [ho] at hok
      exact nomatch hok
    · rw [ho] at hok
      exact nomatch hok
    · exact nomatch hx.symm.trans hout
    · obtain ⟨hstatus, hfifo⟩ := sent_queue_in hack hx
      have hlength := (h.modest.respond _).2 data hack
      have hpacket := (dataFor_packet x.channel hlength).1
      have hstep : (w.env.1.sent (x.transaction link buffer room)).rxFifo.length
          = announced
            (w.env.1.sent (x.transaction link buffer room)).rxStatus := by
        rw [hstatus, hfifo, announced_append, List.length_append, h.inStep]
        exact congrArg _ hpacket.symm
      rw [ho, drained_eq hstep (Nat.zero_le _)]
      exact ⟨rfl, rfl⟩
  rw [hk']
  exact hqueue

/-! ## Any number of operations -/

/-- The power switch of an operation, if it has one, is no part of the core. -/
def PowerApart (operation : Operation (Controller × τ)) : Prop :=
  ∀ k log, operation.PowerPreserves fun w => w.env.1 = k ∧ w.log = log

/-- What concerns only the core and the log, the power switch leaves alone. -/
theorem PowerApart.preserves {operation : Operation (Controller × τ)}
    (h : PowerApart operation) {P : World Register (Controller × τ) → Prop}
    (hP : ∀ w w', w'.env.1 = w.env.1 → w'.log = w.log → P w → P w') :
    operation.PowerPreserves P := by
  have hpower : ∀ {power : PowerSwitch (Controller × τ)},
      (∀ k log, Preserves (fun w => w.env.1 = k ∧ w.log = log) power) →
      Preserves P power := by
    intro power hpower w hw
    have hends : ∀ w' : World Register (Controller × τ),
        w'.env.1 = w.env.1 ∧ w'.log = w.log → P w' :=
      fun w' hw' => hP w w' hw'.1 hw'.2 hw
    have hkept := hpower w.env.1 w.log w ⟨rfl, rfl⟩
    exact (hkept.mono fun _ => hends).weaken hends
  cases operation with
  | init power => exact hpower h
  | start power timeout => exact hpower h
  | _ => trivial

theorem Replayed.same {k : Controller} {log : List (Event Register)}
    {P : Controller → Prop} (w w' : World Register (Controller × τ))
    (henv : w'.env.1 = w.env.1) (hlog : w'.log = w.log)
    (h : Replayed k log P w) : Replayed k log P w' := by
  constructor
  · rw [henv, hlog]
    exact h.replays
  · rw [henv]
    exact h.now

/-- What a core and its device can have come to: any number of operations of
drivers, successful or not, finished or not, with packets and completions that
nobody has asked for queued between them, and any other changes that do not
concern the queue. -/
inductive Fed (clock : Clock τ) (settings : Settings) :
    World Register (Controller × τ) → Prop where
  | start (w : World Register (Controller × τ)) :
    w.env.1.Framed → Fed clock settings w
  | packet {w : World Register (Controller × τ)} (channel : BitVec 4)
      (data : List Byte) :
    data.length < 2048 → Fed clock settings w →
    Fed clock settings
      { w with env := (w.env.1.queuePacket channel data, w.env.2) }
  | completion {w : World Register (Controller × τ)} (channel : BitVec 4) :
    Fed clock settings w →
    Fed clock settings
      { w with env := (w.env.1.queueCompletion channel, w.env.2) }
  | change {w : World Register (Controller × τ)} (k : Controller) :
    k.rxStatus = w.env.1.rxStatus → k.rxFifo = w.env.1.rxFifo →
    k.device.Modest → Fed clock settings w →
    Fed clock settings { w with env := (k, w.env.2) }
  | operate {w : World Register (Controller × τ)}
      (operation : Operation (Controller × τ)) (driver : Driver)
      (patience : Nat) :
    PowerApart operation → Fed clock settings w →
    Fed clock settings
      ((operation.perform (hostOn clock settings) driver).leaves patience w)

/-- One operation, wherever it ends. -/
theorem replayed_perform {operation : Operation (Controller × τ)}
    (hp : PowerApart operation) (driver : Driver) (patience : Nat)
    {w : World Register (Controller × τ)} (h : w.env.1.Framed) :
    Replayed w.env.1 w.log Controller.Framed
      ((operation.perform (hostOn clock settings) driver).leaves patience
        w) := by
  have hstart : Replayed w.env.1 w.log Controller.Framed w :=
    ⟨⟨[], rfl, .start⟩, h⟩
  exact ((withstandsAll_framed _ _).perform (hp.preserves Replayed.same)
    driver).leaves hstart patience

theorem Fed.framed {w : World Register (Controller × τ)}
    (h : Fed clock settings w) : w.env.1.Framed := by
  induction h with
  | start w hw => exact hw
  | packet channel data hdata _ ih =>
    exact ⟨inStep_queuePacket ih.inStep channel hdata, ih.modest⟩
  | completion channel _ ih =>
    exact ⟨inStep_queueCompletion ih.inStep channel, ih.modest⟩
  | change k hstatus hfifo hmodest _ ih =>
    refine ⟨?_, hmodest⟩
    unfold Controller.InStep
    rw [hstatus, hfifo]
    exact ih.inStep
  | operate operation driver patience hp _ ih =>
    exact (replayed_perform hp driver patience ih).now

/-- Between any two operations the receive queue has just the words that its
entries announce; an operation never takes a word or an entry off an empty
queue; and an IN transfer that succeeds, at whatever point of an operation,
leaves the queue empty. -/
theorem framing_kept {w : World Register (Controller × τ)}
    (h : Fed clock settings w) :
    w.env.1.rxFifo.length = announced w.env.1.rxStatus ∧
    (∀ operation driver patience, PowerApart operation →
      let left := (operation.perform (hostOn clock settings) driver).leaves
        patience w
      ∃ events, left.log = events ++ w.log ∧
        Replays w.env.1 events left.env.1) ∧
    ∀ (link : Link) (x : Exchange) (buffer : List Byte) (length patience : Nat)
      (u v : World Register (Controller × τ)) (moved : Moved TransferError)
      (n : Nat),
      u.env.1.Framed → x.direction = .toHost →
      (hostOn clock settings).transfer link x buffer length patience u =
        .ok moved v →
      moved.result = .ok n → v.env.1.rxStatus = [] ∧ v.env.1.rxFifo = [] :=
  ⟨h.framed.inStep,
    fun _ driver patience hp =>
      (replayed_perform hp driver patience h.framed).replays,
    fun _ _ _ _ _ _ _ _ _ hframed hx hrun hok =>
      transfer_empties hframed hx hrun hok⟩

/-- A core whose device acknowledges anything with five bytes. -/
def generousBench : World Register (Controller × Bench.TickingClock) :=
  ⟨({ device := { forced := some (.ack [1, 2, 3, 4, 5]) } }, {}), []⟩

/-- A packet of seven bytes that nobody has asked for, on another channel. -/
def strayPacket : World Register (Controller × Bench.TickingClock) :=
  { generousBench with
    env := (generousBench.env.1.queuePacket 3 [9, 9, 9, 9, 9, 9, 9],
      generousBench.env.2) }

/-- A transfer with room for two bytes takes the whole queue with it. -/
theorem stray_packet_framed :
    let host := hostOn (Bench.TickingClock.clock false) {}
    let x : Exchange := .control .toHost .data1
    strayPacket.env.1.rxFifo.length = 2 ∧
      announced strayPacket.env.1.rxStatus = 2 ∧
      ∃ moved w', host.transfer {} x [0, 0] 2 4 strayPacket = .ok moved w' ∧
        moved.result = .ok 2 ∧ w'.env.1.rxStatus = [] ∧
        w'.env.1.rxFifo = [] ∧
        ∃ events, w'.log = events ++ strayPacket.log ∧
          Replays strayPacket.env.1 events w'.env.1 := by
  intro host x
  have hmodest : generousBench.env.1.device.Modest := by
    constructor
    · exact fun _ => nofun
    · intro data hdata
      cases hdata
      decide
  have hfed : Fed (Bench.TickingClock.clock false) {} strayPacket :=
    .packet 3 [9, 9, 9, 9, 9, 9, 9] (by decide)
      (.start generousBench ⟨rfl, hmodest⟩)
  obtain ⟨hstep, hoperation, hempties⟩ := framing_kept hfed
  have hreturns : (host.transfer {} x [0, 0] 2).returns 4 strayPacket
      (fun moved _ => decide (moved.result = .ok 2)) = true := by
    decide +kernel
  obtain ⟨moved, w', hrun, hresult⟩ := exists_of_returns hreturns
  have hok : moved.result = .ok 2 := of_decide_eq_true hresult
  have hends := hempties {} x [0, 0] 2 4 strayPacket w' moved 2 hfed.framed
    rfl hrun hok
  obtain ⟨events, hlog, hreplays⟩ := hoperation (.transfer x [0, 0] 2) {} 4
    fun _ _ => trivial
  have hleft : ((Operation.transfer x [0, 0] 2).perform
      (hostOn (Bench.TickingClock.clock false) {}) {}).leaves 4 strayPacket =
        w' :=
    Run.leaves_of_ok (Run.bind_eq_ok.2 ⟨_, _, hrun, rfl⟩)
  rw [hleft] at hlog hreplays
  exact ⟨rfl, by decide, moved, w', hrun, hok, hends.1, hends.2, events, hlog,
    hreplays⟩

end UsbHost.Simulation
