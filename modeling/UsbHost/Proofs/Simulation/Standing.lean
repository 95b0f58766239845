import UsbHost.Host.Enumeration
import UsbHost.Proofs.Driver.Reachable
import UsbHost.Proofs.Simulation.Requests

/-!
# What a control transfer can do to a device

A control transfer with a device of any kind, whatever faults it has and
whatever is left in the receive queue.  A transfer that fails has not applied
its request; one that succeeds has, unless the device acknowledges everything it
is told to.

## Main results

* `Device.respond_failed` — a device that does not acknowledge a transaction can
  only lose a refusal by it.
* `leads_packet` — what a packet of a control transfer makes of a property of
  the device.
* `leads_control_applied` — what a whole transfer can do to where the device
  answers and how it is configured.
* `leads_setIdle`, `leads_setInterface` — requests that change neither.
-/

namespace UsbHost.Simulation

/-! ## Responses -/

namespace Device

variable {d : Device} {t : Transaction}

/-- Nothing makes the device acknowledge what it would not acknowledge by
itself. -/
def Honest (d : Device) : Prop := ∀ data, d.forced ≠ some (.ack data)

/-- A control transaction that is not acknowledged changes nothing. -/
theorem controlTransaction_failed
    (h : ∀ data, (d.controlTransaction t).1 ≠ .ack data) :
    (d.controlTransaction t).2 = d := by
  unfold controlTransaction at h ⊢
  split at h
  next hp =>
    rw [if_pos hp]
    unfold beginControl at h ⊢
    split at h
    · exact absurd rfl (h [])
    next hlength => rw [if_neg hlength]
  next hp =>
    rw [if_neg hp]
    cases hc : d.control with
    | none => rfl
    | some c =>
      rw [hc] at h
      dsimp only at h ⊢
      split at h
      next hs => rw [if_pos hs]
      next hs =>
        rw [if_neg hs]
        split at h
        next hstatus =>
          rw [if_pos hstatus]
          unfold controlStatus at h ⊢
          split at h
          next hzero => rw [if_pos hzero]
          next => exact absurd rfl (h [])
        next hdata =>
          exfalso
          unfold controlData at h
          split at h
          · exact h _ rfl
          · exact h _ rfl

/-- A device that does not acknowledge a control transaction can only lose a
refusal by it. -/
theorem respond_failed (ht : t.type = .control) (he : t.endpoint = 0)
    (h : ∀ data, (d.respond t).1 ≠ .ack data) :
    ∃ b, (d.respond t).2 = { d with nakBudget := b } := by
  rcases Option.eq_none_or_eq_some d.forced with hf | ⟨response, hf⟩
  · rw [respond_control hf ht he] at h ⊢
    split
    · exact ⟨d.nakBudget, rfl⟩
    next ha =>
      rw [if_neg ha] at h
      split
      · exact ⟨_, rfl⟩
      next hb =>
        rw [if_neg hb] at h
        exact ⟨d.nakBudget, controlTransaction_failed h⟩
  · rw [respond_of_forced d hf]
    exact ⟨d.nakBudget, rfl⟩

/-- What an honest device acknowledges, it performs. -/
theorem respond_honest {data : List Byte} (hd : d.Honest)
    (ht : t.type = .control) (he : t.endpoint = 0)
    (h : (d.respond t).1 = .ack data) :
    d.forced = none ∧ d.address = t.address.setWidth 8 ∧
      (d.controlTransaction t).1 = .ack data ∧
      (d.respond t).2 = (d.controlTransaction t).2 := by
  rcases Option.eq_none_or_eq_some d.forced with hf | ⟨response, hf⟩
  · obtain ⟨ha, -, hr⟩ := respond_ack hf ht he h
    rw [hr] at h
    exact ⟨hf, ha, h, congrArg Prod.snd hr⟩
  · rw [respond_of_forced d hf] at h
    have hack : response = .ack data := h
    rw [hack] at hf
    exact absurd hf (hd data)

/-- A device that is not forced has something to say to every control
transaction that is addressed to it. -/
theorem respond_ne_silent (hf : d.forced = none) (ht : t.type = .control)
    (he : t.endpoint = 0) (ha : d.address = t.address.setWidth 8) :
    (d.respond t).1 ≠ .silent := by
  intro hsilent
  rcases respond_addressed hf ht he ha with hr | ⟨-, hr⟩
  · exact nomatch hr.symm.trans hsilent
  · rw [hr] at hsilent
    rcases d.controlTransaction_response t with ⟨data, h, -⟩ | h | h
    · exact nomatch h.symm.trans hsilent
    · exact nomatch h.symm.trans hsilent
    · exact nomatch h.symm.trans hsilent

end Device

/-! ## Packets -/

section Packet

variable {τ : Type} {T : Prop} {clock : Clock τ} {settings : Settings}
  {k : Controller} {s : Link} {direction : Direction} {pid : Pid}
  {buffer : List Byte} {stage : Stage} {P R : Device → Prop}

/-- An exchange that fails leaves alone what losing refusals leaves alone. -/
theorem outcome_failed (hP : ∀ d b, P d → P { d with nakBudget := b })
    (hd : P k.device) {e : TransferError}
    (h : (k.outcome s (.control direction pid) buffer buffer.length).1.result =
      .error e) :
    P (k.outcome s (.control direction pid) buffer buffer.length).2.device := by
  rw [outcome_device]
  split
  · exact hd
  next hfits =>
    have hrefused : ∀ data,
        (k.device.respond (packet s direction pid buffer)).1 ≠ .ack data := by
      intro data hack
      obtain ⟨n, hn⟩ := outcome_result hfits buffer
      have hanswer : k.answer ((Exchange.control direction pid).transaction
          s buffer buffer.length) = .ack data := hack
      rw [hanswer, h] at hn
      exact nomatch hn
    obtain ⟨b, hb⟩ := Device.respond_failed rfl rfl hrefused
    show P (k.device.respond (packet s direction pid buffer)).2
    rw [hb]
    exact hP k.device b hd

/-- An exchange that succeeds with an honest device is one that the device has
performed. -/
theorem outcome_performed (hhonest : k.device.Honest)
    (hR : ∀ data, k.device.forced = none →
      k.device.address = (s.address.setWidth 7).setWidth 8 →
      (k.device.controlTransaction (packet s direction pid buffer)).1 =
        .ack data →
      R (k.device.controlTransaction (packet s direction pid buffer)).2)
    {n : Nat}
    (h : (k.outcome s (.control direction pid) buffer buffer.length).1.result =
      .ok n) :
    R (k.outcome s (.control direction pid) buffer buffer.length).2.device := by
  obtain ⟨hfits, data, hr⟩ := answer_of_outcome_ok h
  rw [outcome_device, if_neg hfits]
  obtain ⟨hf, ha, hack, hsame⟩ := Device.respond_honest hhonest rfl rfl hr
  have hdevice : (k.device.respond (packet s direction pid buffer)).2 =
      (k.device.controlTransaction (packet s direction pid buffer)).2 := hsame
  show R (k.device.respond (packet s direction pid buffer)).2
  rw [hdevice]
  exact hR data hf ha hack

/-- A packet of a control transfer fails and leaves alone what losing refusals
leaves alone, or the device performs its transaction.  The packet comes to an
end if the device is certain to answer. -/
theorem leads_packet (hP : ∀ d b, P d → P { d with nakBudget := b })
    (hhonest : ∀ d, P d → d.Honest)
    (hR : ∀ d data, P d → d.forced = none →
      d.address = (s.address.setWidth 7).setWidth 8 →
      (d.controlTransaction (packet s direction pid buffer)).1 = .ack data →
      R (d.controlTransaction (packet s direction pid buffer)).2)
    (hT : T → (hostOn clock settings).core.DelaysReturn ∧
      ¬ k.Starved (.control direction pid) s buffer.length ∧
      ∀ d, P d → d.forced = none ∧
        d.address = (s.address.setWidth 7).setWidth 8)
    (hstart : P k.device) :
    Leads T ((hostOn clock settings).controlPacket s stage direction pid buffer)
      k fun moved k' => SameCore k k' ∧
        ((∃ e, moved.result = .error e) ∧ P k'.device ∨
          (∃ n, moved.result = .ok n) ∧ R k'.device) := by
  refine (leads_persist (I := fun _ k' => SameCore k k' ∧ P k'.device)
    (fun ht => (hT ht).1) ?_ ?_ ⟨.refl k, hstart⟩).mono ?_
  · rintro n k₁ ⟨hcore, hd⟩ ht
    obtain ⟨hf, ha⟩ := (hT ht).2.2 k₁.device hd
    exact ⟨fun h => (hT ht).2.1 ((hcore.starved_iff _ _ _).1 h),
      Device.respond_ne_silent hf rfl rfl ha⟩
  · rintro n k₁ k₂ ⟨hcore, hd⟩ hnak hk₂
    refine ⟨hcore.trans ((outcome_sameCore _ _ _ _ _).trans hk₂.sameCore), ?_⟩
    rw [hk₂.device_eq]
    exact outcome_failed hP hd hnak
  · rintro moved k' (⟨rfl, hcore, hd⟩ | ⟨n, k₁, ⟨hcore, hd⟩, hne, rfl, hk'⟩)
    · exact ⟨hcore, .inl ⟨⟨_, rfl⟩, hd⟩⟩
    · refine ⟨hcore.trans ((outcome_sameCore _ _ _ _ _).trans hk'.sameCore), ?_⟩
      rw [hk'.device_eq]
      unfold atStage
      cases hresult : (k₁.outcome s (.control direction pid) buffer
          buffer.length).1.result with
      | error e => exact .inl ⟨⟨_, rfl⟩, outcome_failed hP hd hresult⟩
      | ok n =>
        exact .inr ⟨⟨n, rfl⟩, outcome_performed (hhonest _ hd)
          (fun data => hR k₁.device data hd) hresult⟩

end Packet

/-! ## Transfers -/

namespace Device

/-- No request changes what a device is forced to. -/
theorem apply_forced (d : Device) (setup : SetupPacket) :
    (d.apply setup).forced = d.forced := by
  unfold apply
  dsimp only
  split
  · rfl
  · split
    · rfl
    · split
      · rfl
      · rfl

/-- Where a device answers, how it is configured and what it is forced to. -/
structure SameStanding (d d' : Device) : Prop where
  address : d'.address = d.address
  configuration : d'.configuration = d.configuration
  forced : d'.forced = d.forced

theorem SameStanding.refl (d : Device) : d.SameStanding d := ⟨rfl, rfl, rfl⟩

theorem SameStanding.trans {d d' d'' : Device} (h : d.SameStanding d')
    (h' : d'.SameStanding d'') : d.SameStanding d'' :=
  ⟨h'.address.trans h.address, h'.configuration.trans h.configuration,
    h'.forced.trans h.forced⟩

theorem SameStanding.honest {d d' : Device} (h : d.SameStanding d')
    (hd : d.Honest) : d'.Honest := by
  intro data
  rw [h.forced]
  exact hd data

/-- A device in the same standing, in the middle of a request. -/
def Performing (d : Device) (setup : SetupPacket) (d' : Device) : Prop :=
  d.SameStanding d' ∧ ∃ c, d'.control = some c ∧ c.setup = setup

variable {d d' : Device} {s : Link} {setup : SetupPacket}
  {direction : Direction} {pid : Pid} {buffer data : List Byte}

theorem SameStanding.refusals (h : d.SameStanding d') (b : Nat) :
    d.SameStanding { d' with nakBudget := b } :=
  ⟨h.address, h.configuration, h.forced⟩

/-- A SETUP packet only begins its request. -/
theorem performing_setup (h : d.SameStanding d')
    (he : 8 ≤ s.ep0MaxPacket.toNat) :
    d.Performing setup (d'.controlTransaction
      (packet s .toDevice .setup setup.bytes)).2 := by
  rw [controlTransaction_setup he]
  exact ⟨⟨h.address, h.configuration, h.forced⟩, _, rfl, rfl⟩

/-- A packet of data goes on with the request. -/
theorem performing_data (h : d.Performing setup d')
    (hl : SetupPacket.length.get setup ≠ 0)
    (hd : direction = SetupPacket.direction.get setup) (hp : pid ≠ .setup) :
    d.Performing setup
      (d'.controlTransaction (packet s direction pid buffer)).2 := by
  obtain ⟨hstanding, c, hc, rfl⟩ := h
  have hdata : ¬ (SetupPacket.length.get c.setup = 0 ∨
      (packet s direction pid buffer).direction ≠
        SetupPacket.direction.get c.setup) := by
    intro h
    rcases h with h | h
    · exact hl h
    · exact h hd
  rw [controlTransaction_pending hp hc, if_neg hdata]
  split
  · exact ⟨hstanding, c, hc, rfl⟩
  · unfold controlData
    split
    · exact ⟨⟨hstanding.address, hstanding.configuration, hstanding.forced⟩, _,
        rfl, rfl⟩
    · exact ⟨⟨hstanding.address, hstanding.configuration, hstanding.forced⟩, c,
        hc, rfl⟩

/-- The handshake applies the request once it is acknowledged. -/
theorem applied_status (h : d.Performing setup d')
    (hd : if SetupPacket.length.get setup = 0 then direction = .toHost
      else direction = (SetupPacket.direction.get setup).reversed)
    (hack : (d'.controlTransaction (packet s direction .data1 [])).1 =
      .ack data) :
    ∃ d'', d.SameStanding d'' ∧
      (d'.controlTransaction (packet s direction .data1 [])).2 =
        d''.apply setup := by
  obtain ⟨hstanding, c, hc, rfl⟩ := h
  have hp : (packet s direction .data1 []).pid ≠ .setup := nofun
  have hs : c.stalled = false :=
    stalled_of_ack hp hc (Prod.ext hack rfl)
  rw [controlTransaction_status hc hs hd]
  exact ⟨{ d' with control := none },
    ⟨hstanding.address, hstanding.configuration, hstanding.forced⟩, rfl⟩

end Device

section Transfer

variable {τ : Type} {T : Prop} {clock : Clock τ} {settings : Settings}
  {k : Controller} {s : Link} {setup : SetupPacket} {buffer : List Byte}

/-- Whatever becomes of it, a data stage only goes on with the request. -/
theorem leads_dataStage_performing {d : Device} {total : Nat}
    {direction : Direction} (hd : d.Performing setup k.device)
    (hhonest : d.Honest) (hl : SetupPacket.length.get setup ≠ 0)
    (hdirection : direction = SetupPacket.direction.get setup) :
    Leads False ((hostOn clock settings).dataStage s direction total buffer) k
      fun _ k' => SameCore k k' ∧ d.Performing setup k'.device := by
  refine .loop (fun stage k' => stage.pid ≠ .setup ∧ SameCore k k' ∧
    d.Performing setup k'.device) (fun _ _ => 0) ?_ ⟨nofun, .refl k, hd⟩
  rintro stage k₁ ⟨hp, hcore, hk₁⟩
  split
  · refine (leads_slice (Q := fun _ k' => k₁ = k') False.elim
      fun _ => rfl).bind ?_
    rintro chunk _ rfl
    refine (leads_packet (P := d.Performing setup) (R := d.Performing setup)
      (fun _ b h => ⟨h.1.refusals b, h.2⟩) (fun _ h => h.1.honest hhonest)
      (fun _ _ h _ _ _ => Device.performing_data h hl hdirection hp)
      False.elim hk₁).bind ?_
    rintro packet k₂ ⟨hcore₂, h⟩
    have hk₂ : d.Performing setup k₂.device := by
      rcases h with ⟨-, h⟩ | ⟨-, h⟩
      · exact h
      · exact h
    cases packet.result with
    | error e => exact .pure ⟨hcore.trans hcore₂, hk₂⟩
    | ok count =>
      dsimp only
      split
      · exact .pure ⟨hcore.trans hcore₂, hk₂⟩
      · exact .pure ⟨⟨next_ne_setup _, hcore.trans hcore₂, hk₂⟩, nofun⟩
  · exact .pure ⟨hcore, hk₁⟩

/-- What a request has come to: it has failed and changed nothing that lasts, or
the device has applied it. -/
def Requested (d : Device) (setup : SetupPacket) (result : Except UsbError Nat)
    (d' : Device) : Prop :=
  (∃ e, result = .error e) ∧ d.SameStanding d' ∨
    (∃ n, result = .ok n) ∧ ∃ d'', d.SameStanding d'' ∧ d' = d''.apply setup

theorem leads_statusStage_applied {d : Device} {direction : Direction}
    {count : Nat} (hhonest : d.Honest) (hd : d.Performing setup k.device)
    (hdirection : if SetupPacket.length.get setup = 0 then direction = .toHost
      else direction = (SetupPacket.direction.get setup).reversed)
    (hT : T → (hostOn clock settings).core.DelaysReturn ∧ d.forced = none ∧
      d.address = (s.address.setWidth 7).setWidth 8) :
    Leads T ((hostOn clock settings).statusStage s direction count buffer) k
      fun moved k' => SameCore k k' ∧
        Requested d setup moved.result k'.device := by
  unfold Host.statusStage
  refine (leads_packet (P := d.Performing setup)
    (R := fun d' => ∃ d'', d.SameStanding d'' ∧ d' = d''.apply setup)
    (fun _ b h => ⟨h.1.refusals b, h.2⟩) (fun _ h => h.1.honest hhonest)
    (fun _ _ h _ _ hack => Device.applied_status h hdirection hack)
    (fun ht => ?_) hd).bind ?_
  · obtain ⟨hdelay, hf, ha⟩ := hT ht
    refine ⟨hdelay, not_starved_empty s direction .data1 k, fun d' h => ?_⟩
    exact ⟨h.1.forced.trans hf, h.1.address.trans ha⟩
  · rintro packet k' ⟨hcore, ⟨⟨e, hresult⟩, h⟩ | ⟨⟨n, hresult⟩, h⟩⟩
    · rw [hresult]
      exact .pure ⟨hcore, .inl ⟨⟨e, rfl⟩, h.1⟩⟩
    · rw [hresult]
      exact .pure ⟨hcore, .inr ⟨⟨count, rfl⟩, h⟩⟩

/-- A control transfer with an honest device fails and changes nothing that
lasts, or the device has applied the request.  It comes to an end if there is no
data to be moved and the device is certain to answer. -/
theorem leads_control_applied (hhonest : k.device.Honest)
    (he : 8 ≤ s.ep0MaxPacket.toNat)
    (hbuffer : SetupPacket.length.get setup ≠ 0 → buffer ≠ [])
    (hT : T → (hostOn clock settings).core.DelaysReturn ∧
      k.device.forced = none ∧
      k.device.address = (s.address.setWidth 7).setWidth 8 ∧
      2 ≤ k.txSpace ∧ SetupPacket.length.get setup = 0) :
    Leads T ((hostOn clock settings).control s setup buffer) k
      fun moved k' => SameCore k k' ∧
        Requested k.device setup moved.result k'.device := by
  unfold Host.control
  refine (leads_packet (P := k.device.SameStanding)
    (R := k.device.Performing setup) (fun _ b h => h.refusals b)
    (fun _ h => h.honest hhonest)
    (fun _ _ h _ _ _ => Device.performing_setup h he) (fun ht => ?_)
    (.refl _)).bind ?_
  · obtain ⟨hdelay, hf, ha, hspace, -⟩ := hT ht
    exact ⟨hdelay, not_starved_setup hspace, fun d h =>
      ⟨h.forced.trans hf, h.address.trans ha⟩⟩
  rintro sent k₁ ⟨hcore, ⟨⟨e, hresult⟩, h⟩ | ⟨⟨n, hresult⟩, hk₁⟩⟩
  · rw [hresult]
    exact .pure ⟨hcore, .inl ⟨⟨e, rfl⟩, h⟩⟩
  rw [hresult]
  dsimp only
  by_cases hl : SetupPacket.length.get setup = 0
  · have htotal : ¬ 0 <
        min (SetupPacket.length.get setup).toNat buffer.length := by
      rw [hl]
      exact Nat.not_lt_of_le (Nat.min_le_left _ _)
    rw [if_neg htotal]
    refine (leads_statusStage_applied hhonest hk₁ ?_ ?_).mono ?_
    · rw [if_pos hl]
    · intro ht
      obtain ⟨hdelay, hf, ha, -, -⟩ := hT ht
      exact ⟨hdelay, hf, ha⟩
    · exact fun moved k₂ h => ⟨hcore.trans h.1, h.2⟩
  · have hbuffer' := List.length_pos_iff.2 (hbuffer hl)
    have hlength : (SetupPacket.length.get setup).toNat ≠ 0 := fun hzero =>
      hl (BitVec.eq_of_toNat_eq hzero)
    have htotal : 0 <
        min (SetupPacket.length.get setup).toNat buffer.length := by omega
    rw [if_pos htotal]
    refine Leads.weaken (T := False) ?_ fun ht => hl (hT ht).2.2.2.2
    refine (leads_dataStage_performing hk₁ hhonest hl rfl).bind ?_
    rintro moved k₂ ⟨hcore₂, hk₂⟩
    cases hmoved : moved.result with
    | error e =>
      refine .pure ⟨hcore.trans hcore₂, .inl ⟨⟨e, hmoved⟩, hk₂.1⟩⟩
    | ok count =>
      refine (leads_statusStage_applied hhonest hk₂ ?_ False.elim).mono ?_
      · rw [if_neg hl]
      · exact fun moved k₃ h => ⟨hcore.trans (hcore₂.trans h.1), h.2⟩

end Transfer

/-! ## Requests -/

section Request

variable {τ : Type} {T : Prop} {clock : Clock τ} {settings : Settings}
  {k : Controller} {s : Link} {setup : SetupPacket} {buffer : List Byte}

/-- A request comes out as its control transfer does. -/
theorem leads_request {R : Moved UsbError → Controller → Prop}
    (h : Leads T ((hostOn clock settings).control s setup buffer) k R) :
    Leads T (((hostOn clock settings).request setup buffer).run.run s) k
      fun r k' => ∃ moved, R moved k' ∧
        r = (moved.result.map fun n => (n, moved.buffer), s) := by
  unfold Host.request
  refine leads_run_get (leads_run_lift h ?_)
  intro moved k' hR
  cases hmoved : moved.result with
  | ok n => exact leads_run_pure ⟨moved, hR, by rw [hmoved]; rfl⟩
  | error e => exact leads_run_throw ⟨moved, hR, by rw [hmoved]; rfl⟩

/-- A request that changes neither where a device answers nor how it is
configured. -/
theorem Requested.standing {d d' : Device} {result : Except UsbError Nat}
    (h : Requested d setup result d')
    (happly : ∀ d : Device, d.SameStanding (d.apply setup)) :
    d.SameStanding d' := by
  rcases h with ⟨-, h⟩ | ⟨-, d'', h, rfl⟩
  · exact h
  · exact h.trans (happly d'')

theorem Requested.honest {d d' : Device} {result : Except UsbError Nat}
    (h : Requested d setup result d') (hd : d.Honest) : d'.Honest := by
  rcases h with ⟨-, h⟩ | ⟨-, d'', h, rfl⟩
  · exact h.honest hd
  · intro data
    rw [Device.apply_forced]
    exact h.honest hd data

theorem Requested.of_ok {d d' : Device} {n : Nat}
    (h : Requested d setup (.ok n) d') :
    ∃ d'', d.SameStanding d'' ∧ d' = d''.apply setup := by
  rcases h with ⟨⟨e, he⟩, -⟩ | ⟨-, h⟩
  · exact nomatch he
  · exact h

/-- A request to an honest device. -/
theorem leads_request_applied (hhonest : k.device.Honest) (hs : s.Sized)
    (hbuffer : SetupPacket.length.get setup ≠ 0 → buffer ≠ [])
    (hT : T → (hostOn clock settings).core.DelaysReturn ∧
      k.device.forced = none ∧
      k.device.address = (s.address.setWidth 7).setWidth 8 ∧
      2 ≤ k.txSpace ∧ SetupPacket.length.get setup = 0) :
    Leads T (((hostOn clock settings).request setup buffer).run.run s) k
      fun r k' => r.2 = s ∧
        Requested k.device setup (r.1.map Prod.fst) k'.device := by
  refine (leads_request (leads_control_applied hhonest hs.bounds.1 hbuffer
    hT)).mono ?_
  rintro r k' ⟨moved, ⟨-, hrequested⟩, rfl⟩
  refine ⟨rfl, ?_⟩
  cases hresult : moved.result with
  | ok n =>
    rw [hresult] at hrequested
    exact hrequested
  | error e =>
    rw [hresult] at hrequested
    exact hrequested

/-- A request that never changes the standing of a device. -/
theorem leads_request_standing (hhonest : k.device.Honest) (hs : s.Sized)
    (hbuffer : SetupPacket.length.get setup ≠ 0 → buffer ≠ [])
    (happly : ∀ d : Device, d.SameStanding (d.apply setup))
    (hT : T → (hostOn clock settings).core.DelaysReturn ∧
      k.device.forced = none ∧
      k.device.address = (s.address.setWidth 7).setWidth 8 ∧
      2 ≤ k.txSpace ∧ SetupPacket.length.get setup = 0) :
    Leads T (((hostOn clock settings).request setup buffer).run.run s) k
      fun r k' => r.2 = s ∧ k.device.SameStanding k'.device :=
  (leads_request_applied hhonest hs hbuffer hT).mono fun _ _ h =>
    ⟨h.1, h.2.standing happly⟩

/-- The request to report on change only keeps the standing of the device. -/
theorem leads_setIdle (hhonest : k.device.Honest) (hs : s.Sized)
    (hT : T → (hostOn clock settings).core.DelaysReturn ∧
      k.device.forced = none ∧
      k.device.address = (s.address.setWidth 7).setWidth 8 ∧ 2 ≤ k.txSpace) :
    Leads T ((hostOn clock settings).setIdle.run.run s) k fun r k' =>
      r.2 = s ∧ k.device.SameStanding k'.device := by
  unfold Host.setIdle
  refine leads_run_get ?_
  cases s.hid with
  | none => exact leads_run_throw ⟨rfl, .refl _⟩
  | some hid =>
    have hlength : SetupPacket.length.get
        (.setIdle hid.interface 0) = 0 := Device.get_length ..
    have happly : ∀ d : Device,
        d.SameStanding (d.apply (.setIdle hid.interface 0)) := by
      intro d
      rw [Device.apply_setIdle]
      exact ⟨rfl, rfl, rfl⟩
    refine leads_run_bind (leads_request_standing hhonest hs
      (fun hl => absurd hlength hl) happly fun ht => ?_) ?_ ?_
    · obtain ⟨hdelay, hf, ha, hspace⟩ := hT ht
      exact ⟨hdelay, hf, ha, hspace, hlength⟩
    · exact fun _ _ _ h => leads_run_pure h
    · exact fun _ _ _ h => h

/-- If the device rejects it, that is passed over. -/
theorem leads_trySetIdle (hhonest : k.device.Honest) (hs : s.Sized)
    (hT : T → (hostOn clock settings).core.DelaysReturn ∧
      k.device.forced = none ∧
      k.device.address = (s.address.setWidth 7).setWidth 8 ∧ 2 ≤ k.txSpace) :
    Leads T ((tryCatch (hostOn clock settings).setIdle
        fun _ => pure ()).run.run s) k fun r k' =>
      r = (.ok (), s) ∧ k.device.SameStanding k'.device := by
  rw [HostM.run_tryCatch]
  refine (leads_setIdle hhonest hs hT).bind ?_
  rintro ⟨r, s'⟩ k' ⟨rfl, hstanding⟩
  cases r with
  | ok a => exact .pure ⟨rfl, hstanding⟩
  | error e => exact .pure ⟨rfl, hstanding⟩

/-- Selecting another setting of an interface keeps the standing of the
device. -/
theorem leads_setInterface (hhonest : k.device.Honest) (hs : s.Sized)
    (interface setting : Byte) :
    Leads False
      (((hostOn clock settings).setInterface interface setting).run.run s) k
      fun r k' => r.2 = s ∧ k.device.SameStanding k'.device := by
  have hlength : SetupPacket.length.get
      (.setInterface interface setting) = 0 := Device.get_length ..
  have happly : ∀ d : Device,
      d.SameStanding (d.apply (.setInterface interface setting)) := by
    intro d
    rw [Device.apply_setInterface]
    exact .refl d
  unfold Host.setInterface
  refine leads_run_get ?_
  split
  · refine leads_run_bind (leads_request_standing hhonest hs
      (fun hl => absurd hlength hl) happly False.elim) ?_ ?_
    · exact fun _ _ _ h => leads_run_pure h
    · exact fun _ _ _ h => h
  · exact leads_run_throw ⟨rfl, .refl _⟩

end Request

end UsbHost.Simulation
