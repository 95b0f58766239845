import UsbHost.Proofs.Simulation.Discovery
import UsbHost.Proofs.Simulation.Transactions

/-!
# Whether a request has been completed

What a device makes of the transactions on its bus can be replayed from the
log, and with it how many requests it has completed: a request is completed,
and takes effect, when the device acknowledges its handshake.  A control
transfer that succeeds has its request completed, once, with one exception: of
a request for data without a buffer for it the data stage is left out, and the
handshake that follows is an IN packet, which the device takes for a packet of
the data stage.

## Main results

* `after_effects` — what a device makes of its transactions is the effect of
  the requests that it has completed, in their order.
* `leads_packet_seen` — a packet of a control transfer, with its place in the
  log.
* `completed_unless_unread` — what a successful control transfer has made of
  its request.
-/

namespace UsbHost.Simulation

/-! ## Replaying the log -/

namespace Device

variable {d d' : Device} {t : Transaction} {setup : SetupPacket}

/-- The device after some transactions, the latest one first. -/
def after (d : Device) : List Transaction → Device
  | [] => d
  | t :: earlier => ((d.after earlier).respond t).2

/-- The request that is completed between two states of the device. -/
def finished (d d' : Device) : List SetupPacket :=
  match d.control, d'.control with
  | some c, none => [c.setup]
  | _, _ => []

/-- The requests that are completed by some transactions, the latest one
first. -/
def completed (d : Device) : List Transaction → List SetupPacket
  | [] => []
  | t :: earlier =>
    finished (d.after earlier) (d.after (t :: earlier)) ++ d.completed earlier

/-- What requests have an effect on. -/
def effects (d : Device) : Byte × Option Byte × Option Byte :=
  (d.address, d.configuration, d.idleRate)

theorem finished_of_eq (h : d'.control = d.control) : finished d d' = [] := by
  unfold finished
  rw [h]
  cases d.control <;> rfl

theorem finished_of_pending {c : PendingControl} (h : d'.control = some c) :
    finished d d' = [] := by
  unfold finished
  rw [h]
  cases d.control <;> rfl

theorem finished_of_none {c : PendingControl} (h : d.control = some c)
    (h' : d'.control = none) : finished d d' = [c.setup] := by
  unfold finished
  rw [h, h']

/-- No request begins another one. -/
theorem apply_control (d : Device) (setup : SetupPacket) :
    (d.apply setup).control = d.control := by
  unfold apply
  dsimp only
  split
  · rfl
  · split
    · rfl
    · split <;> rfl

/-- The effect of a request depends on nothing else. -/
theorem apply_effects (h : d.effects = d'.effects) (setup : SetupPacket) :
    (d.apply setup).effects = (d'.apply setup).effects := by
  obtain ⟨ha, hrest⟩ := Prod.mk.inj h
  obtain ⟨hc, hi⟩ := Prod.mk.inj hrest
  unfold apply effects
  dsimp only
  split
  · rw [hc, hi]
  · split
    · rw [ha, hi]
    · split
      · rw [ha, hc]
      · rw [ha, hc, hi]

/-- A transaction either leaves alone what requests have an effect on, or it
completes one request, which takes effect. -/
def Finishes (d d' : Device) : Prop :=
  finished d d' = [] ∧ d'.effects = d.effects ∨
    ∃ setup, finished d d' = [setup] ∧ d'.effects = (d.apply setup).effects

theorem finishes_of_eq (hc : d'.control = d.control)
    (he : d'.effects = d.effects) : d.Finishes d' :=
  .inl ⟨finished_of_eq hc, he⟩

theorem controlTransaction_finishes (d : Device) (t : Transaction) :
    d.Finishes (d.controlTransaction t).2 := by
  unfold controlTransaction
  split
  · unfold beginControl
    split
    · exact .inl ⟨finished_of_pending rfl, rfl⟩
    · exact finishes_of_eq rfl rfl
  · cases hc : d.control with
    | none => exact finishes_of_eq rfl rfl
    | some c =>
      dsimp only
      split
      · exact finishes_of_eq rfl rfl
      · split
        · unfold controlStatus
          split
          · exact finishes_of_eq rfl rfl
          · have he : ({ d with control := none } : Device).effects =
                d.effects := rfl
            exact .inr ⟨c.setup, finished_of_none hc (apply_control _ _),
              apply_effects he c.setup⟩
        · unfold controlData
          split
          · exact .inl ⟨finished_of_pending rfl, rfl⟩
          · exact finishes_of_eq rfl rfl

theorem respond_finishes (d : Device) (t : Transaction) :
    d.Finishes (d.respond t).2 := by
  unfold respond
  split
  · exact finishes_of_eq rfl rfl
  · split
    · exact finishes_of_eq rfl rfl
    · split
      · exact finishes_of_eq rfl rfl
      · split
        · exact d.controlTransaction_finishes t
        · split
          · cases d.reports <;> exact finishes_of_eq rfl rfl
          · exact finishes_of_eq rfl rfl

/-- What a device makes of its transactions is the effect of the requests that
it has completed, in their order. -/
theorem after_effects (d : Device) (ts : List Transaction) :
    (d.after ts).effects =
      ((d.completed ts).foldr (fun setup d => d.apply setup) d).effects := by
  induction ts with
  | nil => rfl
  | cons t earlier ih =>
    rw [completed, List.foldr_append]
    rcases (d.after earlier).respond_finishes t with
      ⟨hnone, he⟩ | ⟨r, hone, he⟩
    · have hfinished : finished (d.after earlier) (d.after (t :: earlier)) =
          [] := hnone
      rw [hfinished]
      exact he.trans ih
    · have hfinished : finished (d.after earlier) (d.after (t :: earlier)) =
          [r] := hone
      rw [hfinished]
      exact he.trans (apply_effects ih r)

/-- So much for a device that is known to have completed some requests. -/
theorem effects_of_completed {ts : List Transaction} {done : List SetupPacket}
    (hd : d' = d.after ts) (h : d.completed ts = done) :
    d'.effects = (done.foldr (fun setup d => d.apply setup) d).effects := by
  rw [hd, after_effects, h]

theorem after_forced (d : Device) (ts : List Transaction) :
    (d.after ts).forced = d.forced := by
  induction ts with
  | nil => rfl
  | cons t earlier ih => exact (respond_forced _ t).trans ih

/-- A SETUP packet is acknowledged only if it is whole. -/
theorem fits_of_setup_ack {s : Link} {data : List Byte}
    (h : (d.controlTransaction (packet s .toDevice .setup setup.bytes)).1 =
      .ack data) : 8 ≤ s.ep0MaxPacket.toNat := by
  have hlength : setup.bytes.length = 8 := length_littleEndian 8 _
  refine Nat.le_of_not_lt fun hsmall => ?_
  have hdata : (packet s .toDevice .setup setup.bytes).data.length ≠ 8 := by
    show (setup.bytes.take
      (min setup.bytes.length s.ep0MaxPacket.toNat)).length ≠ 8
    rw [List.length_take]
    omega
  unfold controlTransaction beginControl at h
  rw [if_pos (packet_pid _ _ _ _), if_neg hdata] at h
  exact nomatch h

/-- Only of SETUP packets does an IN transaction's data matter to the
device. -/
theorem respond_data (hin : t.direction = .toHost) (hp : t.pid ≠ .setup)
    (data : List Byte) : d.respond { t with data } = d.respond t := by
  have hcontrol : d.controlTransaction { t with data } =
      d.controlTransaction t := by
    unfold controlTransaction controlStatus controlData
    simp only [if_neg hp, hin]
  unfold respond
  rw [hcontrol]
  rfl

end Device

/-! ## What is seen of a control transfer -/

/-- What the log since `k₀` says: the device is what its transactions have made
of it, and `P` holds of the requests completed by them and of the device. -/
def Seen (k₀ : Controller) (P : List SetupPacket → Device → Prop)
    (k : Controller) : Prop :=
  ∃ ts, k.transactions = ts ++ k₀.transactions ∧
    k.device = k₀.device.after ts ∧ P (k₀.device.completed ts) k.device

/-- Nothing has been completed, and the device is in the middle of the
request. -/
def Pends (setup : SetupPacket) (done : List SetupPacket) (d : Device) : Prop :=
  done = [] ∧ ∃ c, d.control = some c ∧ c.setup = setup

/-- The request has been completed once, and nothing is left pending. -/
def Ends (setup : SetupPacket) (done : List SetupPacket) (d : Device) : Prop :=
  done = [setup] ∧ d.control = none

section Seen

variable {k₀ k k' : Controller} {P R : List SetupPacket → Device → Prop}
  {t : Transaction}

theorem Seen.refl (h : P [] k.device) : Seen k P k := ⟨[], rfl, rfl, h⟩

theorem Seen.forced (h : Seen k₀ P k) :
    k.device.forced = k₀.device.forced := by
  obtain ⟨ts, -, hdevice, -⟩ := h
  rw [hdevice, Device.after_forced]

/-- What the log keeps of a transaction is enough to replay it. -/
theorem respond_logged (hp : t.direction = .toHost → t.pid ≠ .setup) :
    k.device.respond (k.logged t) = k.device.respond t := by
  unfold Controller.logged
  split
  next data _ hin => exact Device.respond_data hin (hp hin) data
  · rfl

/-- One more transaction. -/
theorem Seen.step {s : Link} {x : Exchange} {buffer : List Byte} {room : Nat}
    (h : Seen k₀ P k) (hp : x.direction = .toHost → x.pid ≠ .setup)
    (hfits : ¬ k.Starved x s room)
    (hk : Rests x.channel (k.outcome s x buffer room).2 k')
    (hR : ∀ done, P done k.device →
      let d := (k.device.respond (x.transaction s buffer room)).2
      R (Device.finished k.device d ++ done) d) : Seen k₀ R k' := by
  obtain ⟨ts, hlog, hdevice, hP⟩ := h
  have hk' : k'.device =
      (k.device.respond (x.transaction s buffer room)).2 := by
    rw [hk.device_eq, outcome_device, if_neg hfits]
  have hafter : (k₀.device.after
      (k.logged (x.transaction s buffer room) :: ts)) = k'.device := by
    rw [Device.after, ← hdevice, respond_logged hp, hk']
  refine ⟨k.logged (x.transaction s buffer room) :: ts, ?_, hafter.symm, ?_⟩
  · rw [hk.transactions_eq, outcome_transactions, if_neg hfits, hlog,
      List.cons_append]
  · rw [Device.completed, hafter, ← hdevice, hk']
    exact hR _ hP

end Seen

/-! ## Packets -/

section Transfer

variable {τ : Type} {clock : Clock τ} {settings : Settings}
  {k₀ k : Controller} {s : Link} {setup : SetupPacket} {direction : Direction}
  {pid : Pid} {buffer : List Byte} {stage : Stage}
  {P R : List SetupPacket → Device → Prop}

/-- A packet of a control transfer that is acknowledged has been performed by
the device, once; before that it has only been refused. -/
theorem leads_packet_seen (hf : k₀.device.forced = none)
    (hp : direction = .toHost → pid ≠ .setup)
    (hP : ∀ done d b, P done d → P done { d with nakBudget := b })
    (hR : ∀ done d data, P done d →
      (d.controlTransaction (packet s direction pid buffer)).1 = .ack data →
      let d' := (d.controlTransaction (packet s direction pid buffer)).2
      R (Device.finished d d' ++ done) d')
    (hk : Seen k₀ P k) :
    Leads False
      ((hostOn clock settings).controlPacket s stage direction pid buffer) k
      fun moved k' => ∀ n, moved.result = .ok n → Seen k₀ R k' := by
  refine (leads_persist (I := fun _ => Seen k₀ P) False.elim
    (fun _ _ _ => False.elim) ?_ hk).mono ?_
  · intro _ k k' hk hnak hk'
    obtain ⟨hfits, hr⟩ := answer_of_outcome_nak hnak
    obtain ⟨-, hdevice⟩ :=
      Device.respond_nak (hk.forced.trans hf) rfl rfl hr
    refine hk.step hp hfits hk' fun done hdone => ?_
    have hnone : Device.finished k.device
        { k.device with nakBudget := k.device.nakBudget - 1 } = [] :=
      Device.finished_of_eq rfl
    dsimp only
    rw [hdevice, hnone]
    exact hP done _ _ hdone
  · rintro moved k' (⟨rfl, -⟩ | ⟨-, k, hk, -, rfl, hk'⟩) n hn
    · exact nomatch hn
    · cases hresult : (k.outcome s (.control direction pid) buffer
          buffer.length).1.result with
      | error e =>
        unfold atStage at hn
        rw [hresult] at hn
        exact nomatch hn
      | ok count =>
        obtain ⟨hfits, data, hr⟩ := answer_of_outcome_ok hresult
        obtain ⟨-, -, hready⟩ :=
          Device.respond_ack (hk.forced.trans hf) rfl rfl hr
        refine hk.step hp hfits hk' fun done hdone => ?_
        have hack : (k.device.controlTransaction
            (packet s direction pid buffer)).1 = .ack data := by
          rw [← hr]
          exact (congrArg Prod.fst hready).symm
        dsimp only
        rw [hready]
        exact hR done _ data hdone hack

/-! ## Stages -/

theorem Pends.refused {done : List SetupPacket} {d : Device}
    (h : Pends setup done d) (b : Nat) :
    Pends setup done { d with nakBudget := b } := h

/-- Whatever is left of an earlier request, a SETUP packet that is acknowledged
begins a new one, and completes none. -/
theorem leads_setup_seen (hf : k.device.forced = none) :
    Leads False ((hostOn clock settings).controlPacket s .setup .toDevice .setup
        setup.bytes) k
      fun moved k' => ∀ n, moved.result = .ok n → Seen k (Pends setup) k' := by
  refine leads_packet_seen (P := fun done _ => done = []) hf nofun
    (fun _ _ _ h => h) ?_ (.refl rfl)
  intro done d data hdone hack
  have he : 8 ≤ s.ep0MaxPacket.toNat := Device.fits_of_setup_ack hack
  dsimp only
  rw [Device.controlTransaction_setup he, hdone]
  exact ⟨by rw [Device.finished_of_pending rfl]; rfl, _, rfl, rfl⟩

/-- A packet in the direction of the data goes on with the request. -/
theorem leads_data_seen (hf : k₀.device.forced = none)
    (hl : SetupPacket.length.get setup ≠ 0)
    (hd : direction = SetupPacket.direction.get setup) (hp : pid ≠ .setup)
    (hk : Seen k₀ (Pends setup) k) :
    Leads False
      ((hostOn clock settings).controlPacket s stage direction pid buffer) k
      fun moved k' => ∀ n, moved.result = .ok n →
        Seen k₀ (Pends setup) k' := by
  refine leads_packet_seen (P := Pends setup) hf (fun _ => hp)
    (fun _ _ b h => h.refused b) ?_ hk
  intro done d data ⟨hdone, hpends⟩ _
  have hperforming : d.Performing setup
      (d.controlTransaction (packet s direction pid buffer)).2 :=
    Device.performing_data ⟨.refl d, hpends⟩ hl hd hp
  obtain ⟨-, c, hc, hsetup⟩ := hperforming
  dsimp only
  rw [Device.finished_of_pending hc, hdone]
  exact ⟨rfl, c, hc, hsetup⟩

/-- A handshake completes the request. -/
theorem leads_handshake_seen (hf : k₀.device.forced = none)
    (hd : if SetupPacket.length.get setup = 0 then direction = .toHost
      else direction = (SetupPacket.direction.get setup).reversed)
    (hk : Seen k₀ (Pends setup) k) :
    Leads False
      ((hostOn clock settings).controlPacket s stage direction .data1 []) k
      fun moved k' => ∀ n, moved.result = .ok n → Seen k₀ (Ends setup) k' := by
  refine leads_packet_seen (P := Pends setup) hf (fun _ => nofun)
    (fun _ _ b h => h.refused b) ?_ hk
  rintro done d data ⟨hdone, c, hc, rfl⟩ hack
  have hp : (packet s direction .data1 []).pid ≠ .setup := nofun
  have hs : c.stalled = false :=
    Device.stalled_of_ack hp hc (Prod.ext hack rfl)
  have hnone : (({ d with control := none } : Device).apply c.setup).control =
      none := Device.apply_control _ _
  dsimp only
  rw [Device.controlTransaction_status hc hs hd,
    Device.finished_of_none hc hnone, hdone]
  exact ⟨rfl, hnone⟩

/-- A whole data stage goes on with the request. -/
theorem leads_dataStage_seen {total : Nat} (hf : k₀.device.forced = none)
    (hl : SetupPacket.length.get setup ≠ 0)
    (hd : direction = SetupPacket.direction.get setup)
    (hk : Seen k₀ (Pends setup) k) :
    Leads False ((hostOn clock settings).dataStage s direction total buffer) k
      fun moved k' => ∀ n, moved.result = .ok n →
        Seen k₀ (Pends setup) k' := by
  refine .loop (fun stage k' => stage.pid ≠ .setup ∧ Seen k₀ (Pends setup) k')
    (fun _ _ => 0) ?_ ⟨nofun, hk⟩
  rintro stage k₁ ⟨hp, hk₁⟩
  split
  · refine (leads_slice (Q := fun _ k' => k₁ = k') False.elim
      fun _ => rfl).bind ?_
    rintro chunk _ rfl
    refine (leads_data_seen hf hl hd hp hk₁).bind ?_
    intro packet k₂ hk₂
    cases hresult : packet.result with
    | error e => exact .pure fun _ => nofun
    | ok count =>
      dsimp only
      split
      · exact .pure fun _ _ => hk₂ count hresult
      · exact .pure ⟨⟨next_ne_setup _, hk₂ count hresult⟩, nofun⟩
  · exact .pure fun _ _ => hk₁

/-! ## Whole transfers -/

/-- Whether the host leaves out a data stage that the device expects to send. -/
def Unread (setup : SetupPacket) (buffer : List Byte) : Prop :=
  SetupPacket.direction.get setup = .toHost ∧
    SetupPacket.length.get setup ≠ 0 ∧ buffer = []

/-- A status stage succeeds with the count it is given, if its packet does. -/
theorem leads_statusStage_seen {count : Nat}
    (h : Leads False
      ((hostOn clock settings).controlPacket s .status direction .data1 []) k
      fun moved k' => ∀ n, moved.result = .ok n → Seen k₀ R k') :
    Leads False ((hostOn clock settings).statusStage s direction count buffer) k
      fun moved k' => ∀ n, moved.result = .ok n →
        n = count ∧ Seen k₀ R k' := by
  refine h.bind ?_
  intro packet k' hk'
  cases hresult : packet.result with
  | error e => exact .pure fun _ => nofun
  | ok m =>
    refine .pure fun n hn => ⟨?_, hk' m hresult⟩
    cases hn
    rfl

/-- A control transfer that succeeds has completed its request once, unless its
data was left unread; then the request is still pending. -/
theorem leads_control_seen (hf : k.device.forced = none) :
    Leads False ((hostOn clock settings).control s setup buffer) k
      fun moved k' => ∀ n, moved.result = .ok n →
        (¬ Unread setup buffer → Seen k (Ends setup) k') ∧
        (Unread setup buffer → n = 0 ∧ Seen k (Pends setup) k') := by
  refine (leads_setup_seen hf).bind ?_
  intro sent k₁ hk₁
  cases hsent : sent.result with
  | error e => exact .pure fun _ => nofun
  | ok m =>
    have hk₁ := hk₁ m hsent
    dsimp only
    by_cases hpositive :
        0 < min (SetupPacket.length.get setup).toNat buffer.length
    · have hl := announces_data rfl hpositive
      have hread : ¬ Unread setup buffer := by
        rintro ⟨-, -, rfl⟩
        exact absurd (Nat.min_le_right _ _) (Nat.not_le_of_lt hpositive)
      rw [if_pos hpositive]
      refine (leads_dataStage_seen hf hl rfl hk₁).bind ?_
      intro moved k₂ hk₂
      cases hmoved : moved.result with
      | error e => exact .pure fun n hn => nomatch hmoved.symm.trans hn
      | ok count =>
        refine (leads_statusStage_seen (leads_handshake_seen hf ?_
          (hk₂ count hmoved))).mono fun _ _ h n hn =>
            ⟨fun _ => (h n hn).2, fun hunread => absurd hunread hread⟩
        rw [if_neg hl]
    · rw [if_neg hpositive]
      by_cases hunread : Unread setup buffer
      · -- To the device, the handshake is one more packet of data.
        exact (leads_statusStage_seen (leads_data_seen hf hunread.2.1
          hunread.1.symm nofun hk₁)).mono fun _ _ h n hn =>
            ⟨fun hread => absurd hunread hread, fun _ => h n hn⟩
      · refine (leads_statusStage_seen (leads_handshake_seen hf ?_
          hk₁)).mono fun _ _ h n hn =>
            ⟨fun _ => (h n hn).2, fun h => absurd h hunread⟩
        split
        · rfl
        next hl =>
          have hbuffer : buffer = [] := by
            have hlength : (SetupPacket.length.get setup).toNat ≠ 0 :=
              fun hzero => hl (BitVec.eq_of_toNat_eq hzero)
            exact List.length_eq_zero_iff.1 (by omega)
          cases hd : SetupPacket.direction.get setup with
          | toHost => exact absurd ⟨hd, hl, hbuffer⟩ hunread
          | toDevice => rfl

/-- With a device that is not forced, the log tells what a control transfer
that succeeds has made of its request.  In general the device has completed
just this request, once, so that its effect has been applied and nothing is
left pending.  The exception is a request for data without a buffer for it: the
transfer succeeds with zero bytes, but the request is still pending and has had
no effect. -/
theorem completed_unless_unread {n count : Nat}
    {w w' : World Register (Controller × τ)} {moved : Moved UsbError}
    (hf : w.env.1.device.forced = none)
    (hrun : (hostOn clock settings).control s setup buffer n w = .ok moved w')
    (hok : moved.result = .ok count) :
    let d := w.env.1.device
    let d' := w'.env.1.device
    ∃ ts, w'.env.1.transactions = ts ++ w.env.1.transactions ∧
      d' = d.after ts ∧
      (¬ Unread setup buffer → d.completed ts = [setup] ∧ d'.control = none ∧
        d'.effects = (d.apply setup).effects) ∧
      (Unread setup buffer → count = 0 ∧ d.completed ts = [] ∧
        (∃ c, d'.control = some c ∧ c.setup = setup) ∧
        d'.effects = d.effects) := by
  intro d d'
  obtain ⟨hread, hunread⟩ :=
    (leads_control_seen hf).of_run rfl hrun count hok
  by_cases h : Unread setup buffer
  · obtain ⟨hcount, ts, hlog, hd', hdone, hpending⟩ := hunread h
    exact ⟨ts, hlog, hd', fun hnot => absurd h hnot, fun _ =>
      ⟨hcount, hdone, hpending, Device.effects_of_completed hd' hdone⟩⟩
  · obtain ⟨ts, hlog, hd', hdone, hnone⟩ := hread h
    exact ⟨ts, hlog, hd', fun _ =>
      ⟨hdone, hnone, Device.effects_of_completed hd' hdone⟩, fun h' =>
        absurd h' h⟩

end Transfer

/-- A fresh gamepad is asked for its device descriptor.  Without a buffer for it
the transfer succeeds, but the request is still pending; with one it is
completed. -/
theorem unread_descriptor_pending :
    let host := hostOn (Bench.TickingClock.clock false) {}
    let setup : SetupPacket := .getDescriptor .device 0 18
    (∃ moved w' c, host.control {} setup [] 8 freshBench = .ok moved w' ∧
      moved.result = .ok 0 ∧ w'.env.1.device.control = some c ∧
      c.setup = setup) ∧
    ∃ moved w', host.control {} setup (List.replicate 18 0) 8 freshBench =
        .ok moved w' ∧
      moved.result = .ok 18 ∧ w'.env.1.device.control = none := by
  intro host setup
  constructor
  · have hreturns : (host.control {} setup []).returns 8 freshBench
        (fun moved _ => decide (moved.result = .ok 0)) = true := by
      decide +kernel
    obtain ⟨moved, w', hrun, hok⟩ := Run.exists_of_returns hreturns
    obtain ⟨ts, -, -, -, hunread⟩ :=
      completed_unless_unread (w := freshBench) rfl hrun (of_decide_eq_true hok)
    obtain ⟨-, -, ⟨c, hc, hsetup⟩, -⟩ :=
      hunread ⟨by decide, by decide, rfl⟩
    exact ⟨moved, w', c, hrun, of_decide_eq_true hok, hc, hsetup⟩
  · have hreturns : (host.control {} setup (List.replicate 18 0)).returns 8
        freshBench (fun moved _ => decide (moved.result = .ok 18)) = true := by
      decide +kernel
    obtain ⟨moved, w', hrun, hok⟩ := Run.exists_of_returns hreturns
    obtain ⟨ts, -, -, hread, -⟩ :=
      completed_unless_unread (w := freshBench) rfl hrun (of_decide_eq_true hok)
    exact ⟨moved, w', hrun, of_decide_eq_true hok,
      (hread fun h => absurd h.2.2 (by decide)).2.1⟩

end UsbHost.Simulation
