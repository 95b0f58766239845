import UsbHost.Host.RootPort
import UsbHost.Proofs.Driver.PortLaw
import UsbHost.Proofs.Simulation.Leads

/-!
# The root port on the simulated core

What the driver's work on the port comes to.  The writes it makes change
nothing about what is plugged in; the device notices just the end of a bus
reset, and the port comes up enabled if a device is attached and the port is
not stuck.

## Main results

* `Port.register_fields`, `quiet_fields` — what the port register says, and what
  is left of it once it is quiet.
* `write_acknowledge`, `write_beginReset`, `write_endReset`,
  `write_acknowledgeEnabled` — what each write of a bus reset does to the core.
* `leads_resetBus_exact` — the three ways a bus reset can go, and the state that
  it leaves.
* `leads_resetBus` — what of that concerns the device.
-/

namespace UsbHost.Simulation

/-! ## The register -/

/-- The port register tells the state of the port. -/
theorem Port.register_fields (p : Port) :
    HostPort.connected.get p.register = p.attached ∧
      HostPort.enabled.get p.register = p.enabled ∧
      HostPort.enableChanged.get p.register = p.enableChanged ∧
      HostPort.reset.get p.register = p.resetting ∧
      HostPort.power.get p.register = p.powered ∧
      HostPort.speed.get p.register = p.speed.setWidth 2 := by
  simp (disch := decide) only [Port.register, BitField.get_set_of_disjoint,
    BitField.get_set, and_self]

/-- What is left of the register once it is quiet turns nothing off, whatever
changes are acknowledged with it; a reset goes on or stays off. -/
theorem quiet_fields (p : HostPort) (changes : PortChanges) :
    let v : HostPort := ⟨p.quiet.raw ||| changes.bits⟩
    HostPort.enabled.get v = false ∧
      HostPort.reset.get v = HostPort.reset.get p := by
  have hchange : ∀ i, (0x2A : Word).getLsbD i = false →
      changes.bits.getLsbD i = false := by
    intro i hi
    rw [← changes.bits_and_known, BitVec.getLsbD_and, hi, Bool.and_false]
  have hquiet : ∀ i, p.quiet.raw.getLsbD i =
      (p.raw.getLsbD i && (~~~HostPort.writeOneToClear).getLsbD i) :=
    fun _ => BitVec.getLsbD_and
  constructor
  · show HostPort.enabled.get _ = _
    rw [HostPort.enabled, BitField.get_flag]
    show (p.quiet.raw ||| changes.bits).getLsbD 2 = _
    rw [BitVec.getLsbD_or, hquiet, hchange 2 (by decide)]
    exact (Bool.or_false _).trans (Bool.and_false _)
  · show HostPort.reset.get _ = _
    rw [HostPort.reset, BitField.get_flag, BitField.get_flag]
    show (p.quiet.raw ||| changes.bits).getLsbD 8 = _
    rw [BitVec.getLsbD_or, hquiet, hchange 8 (by decide)]
    exact (Bool.or_false _).trans (Bool.and_true _)

/-- A change of the port turns nothing off, and resets the bus only if it says
so. -/
theorem apply_fields (change : PortControl) (p : HostPort) :
    HostPort.enabled.get (change.apply p.quiet) = false ∧
      HostPort.reset.get (change.apply p.quiet) =
        change.reset.getD (HostPort.reset.get p) := by
  obtain ⟨henabled, hreset⟩ := quiet_fields p FlagSet.empty
  have hquiet : (⟨p.quiet.raw ||| (FlagSet.empty : PortChanges).bits⟩ :
      HostPort) = p.quiet :=
    congrArg HostPort.mk (BitVec.or_zero)
  rw [hquiet] at henabled hreset
  unfold PortControl.apply
  cases change.power with
  | none =>
    cases change.reset with
    | none => exact ⟨henabled, hreset⟩
    | some on =>
      simp (disch := decide) only [BitField.get_set_of_disjoint,
        BitField.get_set, henabled, Option.getD_some, and_self]
  | some power =>
    cases change.reset with
    | none =>
      simp (disch := decide) only [BitField.get_set_of_disjoint, henabled,
        hreset, Option.getD_none, and_self]
    | some on =>
      simp (disch := decide) only [BitField.get_set_of_disjoint,
        BitField.get_set, henabled, Option.getD_some, and_self]

/-! ## Writes -/

/-- Two states of a port with the same thing plugged in. -/
structure Port.SamePlug (p p' : Port) : Prop where
  attached : p'.attached = p.attached
  stuck : p'.stuck = p.stuck
  speed : p'.speed = p.speed

theorem Port.SamePlug.refl (p : Port) : p.SamePlug p := ⟨rfl, rfl, rfl⟩

theorem Port.SamePlug.trans {p p' p'' : Port} (h : p.SamePlug p')
    (h' : p'.SamePlug p'') : p.SamePlug p'' :=
  ⟨h'.attached.trans h.attached, h'.stuck.trans h.stuck,
    h'.speed.trans h.speed⟩

/-- `k'` is `k` with another device, after work on the port that changes nothing
about what is plugged in. -/
structure Plugged (k : Controller) (d : Device) (k' : Controller) : Prop
    extends k.port.SamePlug k'.port where
  rest : ∃ writes, k' = { k with port := k'.port, device := d, writes }

namespace Plugged

variable {k k' : Controller} {d : Device} {v : HostPort}

theorem device_eq (h : Plugged k d k') : k'.device = d := by
  obtain ⟨writes, hk⟩ := h.rest
  rw [hk]

/-- A write that keeps the reset line as it is. -/
theorem held (k : Controller) (hoff : HostPort.enabled.get v = false)
    (hreset : HostPort.reset.get v = k.port.resetting) :
    let k' := k.write .port v.raw
    Plugged k k.device k' ∧ k'.port.resetting = k.port.resetting ∧
      (k.port.resetting = false → k'.port.enabled = k.port.enabled) := by
  intro k'
  have hk' : k' = { k with writes := k.writes + 1 }.writePort v := rfl
  unfold Controller.writePort at hk'
  cases hr : k.port.resetting with
  | true =>
    rw [hr] at hreset
    rw [hk', if_pos hreset]
    exact ⟨⟨⟨rfl, rfl, rfl⟩, _, rfl⟩, rfl, nofun⟩
  | false =>
    rw [hr] at hreset
    have hnot : ¬ HostPort.reset.get v = true := by
      rw [hreset]
      exact Bool.false_ne_true
    have hidle : ¬ k.port.resetting = true := by
      rw [hr]
      exact Bool.false_ne_true
    rw [hk', if_neg hnot, if_neg hidle]
    refine ⟨⟨⟨rfl, rfl, rfl⟩, _, rfl⟩, hr, fun _ => ?_⟩
    show (k.port.enabled && !HostPort.enabled.get v) = _
    rw [hoff]
    exact Bool.and_true _

end Plugged

/-! ## Writes of a bus reset -/

/-- What the reset line is written as, if the port is read as `resetting`. -/
def lineAfter (resetting : Bool) : PortPurpose → Bool
  | .beginReset => true
  | .endReset => false
  | _ => resetting

section Writes

variable {k : Controller} {p : PortPurpose} {v : Word}

/-- What a word that is written to the port says to the core: nothing is turned
off, the changes are acknowledged that it is meant to acknowledge, and power and
the reset line stay as they are unless it is about them. -/
theorem fields_of_writes (hp : p ≠ .power)
    (hv : p.Writes k.port.register.raw v) :
    HostPort.enabled.get ⟨v⟩ = false ∧
      HostPort.connectDetected.get ⟨v⟩ = decide (1 ∈ p.acknowledged) ∧
      HostPort.enableChanged.get ⟨v⟩ = decide (3 ∈ p.acknowledged) ∧
      HostPort.overcurrentChanged.get ⟨v⟩ = decide (5 ∈ p.acknowledged) ∧
      HostPort.power.get ⟨v⟩ = k.port.powered ∧
      HostPort.reset.get ⟨v⟩ = lineAfter k.port.resetting p := by
  obtain ⟨-, -, -, hreset, hpower, -⟩ := k.port.register_fields
  have hbit : ∀ {lo : Nat} (fits : lo + 1 ≤ 32) (w : Word),
      (BitField.flag lo fits : BitField HostPort Bool).get ⟨w⟩ =
        w.getLsbD lo :=
    fun fits w => BitField.get_flag fits (HostPort.mk w)
  have hline : ∀ i, i = 8 ∨ i = 12 → i ≠ 2 ∧ i ∉ HostPort.changeBits := by
    rintro i (rfl | rfl) <;> decide
  have hkept : ∀ i, i = 8 ∨ i = 12 → (∀ b, p.control? ≠ some (i, b)) →
      v.getLsbD i = k.port.register.raw.getLsbD i :=
    fun i hi hcontrol => hv.rest i (hline i hi).1 (hline i hi).2 hcontrol
  refine ⟨(hbit _ v).trans hv.enable, (hbit _ v).trans (hv.changes 1 ?_),
    (hbit _ v).trans (hv.changes 3 ?_), (hbit _ v).trans (hv.changes 5 ?_),
    ?_, ?_⟩
  · decide
  · decide
  · decide
  · rw [← hpower]
    refine (hbit _ v).trans ((hkept 12 (.inr rfl) fun b => ?_).trans
      (hbit _ _).symm)
    cases p with
    | power => exact absurd rfl hp
    | _ => nofun
  · refine (hbit _ v).trans ?_
    cases p with
    | power => exact absurd rfl hp
    | beginReset => exact hv.control 8 true rfl
    | endReset => exact hv.control 8 false rfl
    | _ =>
      rw [← hreset]
      exact (hkept 8 (.inl rfl) nofun).trans (hbit _ _).symm

/-- Acknowledging every change leaves none pending. -/
theorem write_acknowledge
    (hv : PortPurpose.acknowledge.Writes k.port.register.raw v) :
    k.write .port v = { k with
      port := { k.port with
        enabled := k.port.enabled && !k.port.resetting
        enableChanged := false
        connectDetected := false
        overcurrentChanged := false
        writes := k.port.writes + 1 }
      writes := k.writes + 1 } := by
  obtain ⟨henabled, hconnect, hchange, hcurrent, hpower, hreset⟩ :=
    fields_of_writes (by decide) hv
  show Controller.writePort { k with writes := k.writes + 1 } ⟨v⟩ = _
  unfold Controller.writePort
  rw [henabled, hconnect, hchange, hcurrent, hpower, hreset]
  cases hr : k.port.resetting <;>
    simp [PortPurpose.acknowledged, HostPort.changeBits, lineAfter, hr]

/-- Beginning a reset takes the port down. -/
theorem write_beginReset
    (hv : PortPurpose.beginReset.Writes k.port.register.raw v) :
    k.write .port v = { k with
      port := { k.port with
        enabled := false
        resetting := true
        writes := k.port.writes + 1 }
      writes := k.writes + 1 } := by
  obtain ⟨henabled, hconnect, hchange, hcurrent, hpower, hreset⟩ :=
    fields_of_writes (by decide) hv
  show Controller.writePort { k with writes := k.writes + 1 } ⟨v⟩ = _
  unfold Controller.writePort
  rw [henabled, hconnect, hchange, hcurrent, hpower, hreset]
  simp [PortPurpose.acknowledged, lineAfter]

/-- Ending a reset resets the device, and brings the port up if it can be. -/
theorem write_endReset (hr : k.port.resetting = true)
    (hv : PortPurpose.endReset.Writes k.port.register.raw v) :
    let up := k.port.attached && !k.port.stuck
    k.write .port v = { k with
      port := { k.port with
        enabled := k.port.enabled || up
        enableChanged := k.port.enableChanged || up
        resetting := false
        writes := k.port.writes + 1 }
      device := k.device.busReset
      writes := k.writes + 1 } := by
  obtain ⟨henabled, hconnect, hchange, hcurrent, hpower, hreset⟩ :=
    fields_of_writes (by decide) hv
  show Controller.writePort { k with writes := k.writes + 1 } ⟨v⟩ = _
  unfold Controller.writePort
  rw [henabled, hconnect, hchange, hcurrent, hpower, hreset]
  simp [PortPurpose.acknowledged, lineAfter, hr]

/-- Acknowledging that the port has come up does nothing else. -/
theorem write_acknowledgeEnabled (hr : k.port.resetting = false)
    (hv : PortPurpose.acknowledgeEnabled.Writes k.port.register.raw v) :
    k.write .port v = { k with
      port := { k.port with
        enableChanged := false
        writes := k.port.writes + 1 }
      writes := k.writes + 1 } := by
  obtain ⟨henabled, hconnect, hchange, hcurrent, hpower, hreset⟩ :=
    fields_of_writes (by decide) hv
  show Controller.writePort { k with writes := k.writes + 1 } ⟨v⟩ = _
  unfold Controller.writePort
  rw [henabled, hconnect, hchange, hcurrent, hpower, hreset]
  simp [PortPurpose.acknowledged, lineAfter, hr]

end Writes

/-! ## Waiting for the port -/

/-- The speed that the port reports. -/
def Port.reportedSpeed (p : Port) : Speed :=
  .ofCode (p.speed.setWidth 2).toNat

section Port

variable {τ : Type} {T : Prop} {clock : Clock τ} {settings : Settings}
  {k : Controller}

theorem leads_isConnected {Q : Bool → Controller → Prop}
    (h : Q k.port.attached k) :
    Leads T (hostOn clock settings).isConnected k Q := by
  refine leads_load_bind rfl (.pure ?_)
  have hconnected := k.port.register_fields.1
  show Q (HostPort.connected.get k.port.register) k
  rw [hconnected]
  exact h

/-- Waiting for a device tells whether one is attached. -/
theorem leads_awaitDevice {timeout : Duration}
    (hdelay : T → (hostOn clock settings).core.DelaysReturn)
    (hT : T → k.port.attached = true) :
    Leads T ((hostOn clock settings).awaitDevice timeout) k
      fun found k' => found = k.port.attached ∧ k' = k := by
  refine (leads_deadlineAfter (Q := fun _ k' => k = k') fun _ => rfl).bind ?_
  rintro deadline _ rfl
  refine .loop (fun _ k' => k = k') (fun _ _ => 0) ?_ rfl
  rintro _ _ rfl
  refine (leads_isConnected (Q := fun b k' => b = k.port.attached ∧ k = k')
    ⟨rfl, rfl⟩).bind ?_
  rintro connected _ ⟨rfl, rfl⟩
  cases ha : k.port.attached with
  | true => exact .pure ⟨rfl, rfl⟩
  | false =>
    refine (leads_expired (Q := fun _ k' => k = k') fun _ => rfl).bind ?_
    rintro expired _ rfl
    cases expired with
    | true => exact .pure ⟨rfl, rfl⟩
    | false =>
      refine (leads_timeLeft (Q := fun _ k' => k = k') fun _ => rfl).bind ?_
      rintro left _ rfl
      refine (leads_delay (Q := fun _ k' => k = k') hdelay rfl).bind ?_
      rintro _ _ rfl
      refine .pure ⟨rfl, fun ht => ?_⟩
      rw [hT ht] at ha
      exact nomatch ha

/-- Waiting for a port to come up that has changed just if it is up tells
whether it is up, and at which speed.  The change is acknowledged. -/
theorem leads_awaitEnabled
    (hdelay : T → (hostOn clock settings).core.DelaysReturn)
    (hT : T → k.port.enabled = true) (hr : k.port.resetting = false)
    (hchanged : k.port.enableChanged = k.port.enabled) :
    Leads T (hostOn clock settings).awaitEnabled k fun speed? k' =>
      if k.port.enabled then
        speed? = some k.port.reportedSpeed ∧ k' = { k with
          port := { k.port with
            enableChanged := false
            writes := k.port.writes + 1 }
          writes := k.writes + 1 }
      else speed? = none ∧ k' = k := by
  obtain ⟨-, henabled, hchange, -, -, hspeed⟩ := k.port.register_fields
  have hregister : Register.port.decode k.port.register.raw =
      k.port.register := rfl
  refine (leads_deadlineAfter (Q := fun _ k' => k = k') fun _ => rfl).bind ?_
  rintro deadline _ rfl
  refine .loop (fun _ k' => k = k') (fun _ _ => 0) ?_ rfl
  rintro _ _ rfl
  refine leads_load_bind rfl ?_
  rw [hregister, henabled, hchange, hspeed, hchanged]
  cases he : k.port.enabled with
  | true =>
    refine (leads_acknowledgePort (Q := fun _ k' => k' = _)
      (write_acknowledgeEnabled hr
        (acknowledge_writes rfl (by decide) _))).bind ?_
    rintro _ _ rfl
    exact .pure ⟨rfl, rfl⟩
  | false =>
    refine (leads_expired (Q := fun _ k' => k = k') fun _ => rfl).bind ?_
    rintro expired _ rfl
    cases expired with
    | true => exact .pure ⟨rfl, rfl⟩
    | false =>
      refine (leads_delay (Q := fun _ k' => k = k') hdelay rfl).bind ?_
      rintro _ _ rfl
      refine .pure ⟨rfl, fun ht => ?_⟩
      rw [hT ht] at he
      exact nomatch he

/-! ## Bus resets -/

/-- The core after a bus reset with a device on the port: the device is back in
its default state, no change is pending, and the port is up unless it is
stuck. -/
def afterBusReset (k : Controller) : Controller :=
  let up := !k.port.stuck
  let writes := if up then 4 else 3
  { k with
    port := { k.port with
      enabled := up
      enableChanged := false
      connectDetected := false
      overcurrentChanged := false
      resetting := false
      writes := k.port.writes + writes }
    device := k.device.busReset
    writes := k.writes + writes }

/-- A bus reset fails without a device and changes nothing then.  With a device
on the port it does reset the device, whatever state the port is in; what the
driver makes of it depends on whether the port comes up again. -/
theorem leads_resetBus_exact {s : Link}
    (hdelay : T → (hostOn clock settings).core.DelaysReturn)
    (hT : T → k.port.stuck = false) :
    Leads T ((hostOn clock settings).resetBus.run.run s) k fun r k' =>
      (k.port.attached = false ∧ r = (.error .noDevice, s) ∧ k' = k) ∨
      k.port.attached = true ∧ k' = afterBusReset k ∧
        r = if k.port.stuck then (.error .portEnableTimeout, s)
          else (.ok (), s.afterReset k.port.reportedSpeed) := by
  have hpause : ∀ (d : Duration) (k : Controller),
      Leads T ((hostOn clock settings).core.delay d) k fun _ k' => k' = k :=
    fun d k => leads_delay hdelay rfl
  unfold Host.resetBus
  refine leads_run_lift (leads_isConnected
    (Q := fun b k' => b = k.port.attached ∧ k = k') ⟨rfl, rfl⟩) ?_
  rintro _ _ ⟨rfl, rfl⟩
  cases ha : k.port.attached with
  | false => exact leads_run_throw (.inl ⟨rfl, rfl, rfl⟩)
  | true =>
    refine leads_run_lift (leads_acknowledgePort (Q := fun _ k' => k' = _)
      (write_acknowledge (acknowledge_writes rfl (by decide) _))) ?_
    rintro _ _ rfl
    refine leads_run_lift (hpause _ _) ?_
    rintro _ _ rfl
    refine leads_run_lift (leads_updatePort (Q := fun _ k' => k' = _)
      (write_beginReset (change_writes _ rfl rfl (by decide) _))) ?_
    rintro _ _ rfl
    refine leads_run_lift (hpause _ _) ?_
    rintro _ _ rfl
    refine leads_run_lift (leads_updatePort (Q := fun _ k' => k' = _)
      (write_endReset rfl (change_writes _ rfl rfl (by decide) _))) ?_
    rintro _ _ rfl
    refine leads_run_lift (hpause _ _) ?_
    rintro _ _ rfl
    have hup : (false || (k.port.attached && !k.port.stuck)) =
        !k.port.stuck := by
      rw [ha, Bool.true_and, Bool.false_or]
    refine leads_run_lift (leads_awaitEnabled hdelay (fun ht => ?_) rfl rfl) ?_
    · rw [hup, hT ht]
      rfl
    intro speed? k' h
    rw [hup] at h
    unfold afterBusReset
    cases hs : k.port.stuck with
    | true =>
      rw [hs] at h
      obtain ⟨rfl, rfl⟩ := h
      exact leads_run_throw (.inr ⟨rfl, rfl, rfl⟩)
    | false =>
      rw [hs] at h
      obtain ⟨rfl, rfl⟩ := h
      exact .pure (.inr ⟨rfl, rfl, rfl⟩)

theorem plugged_afterBusReset (k : Controller) :
    Plugged k k.device.busReset (afterBusReset k) :=
  ⟨⟨rfl, rfl, rfl⟩, _, rfl⟩

/-- What a bus reset leaves alone, and what becomes of the device. -/
theorem leads_resetBus {s : Link}
    (hdelay : T → (hostOn clock settings).core.DelaysReturn)
    (hT : T → k.port.stuck = false) :
    Leads T ((hostOn clock settings).resetBus.run.run s) k fun r k' =>
      (k.port.attached = false ∧ r = (.error .noDevice, s) ∧ k' = k) ∨
      k.port.attached = true ∧ Plugged k k.device.busReset k' ∧
        r = if k.port.stuck then (.error .portEnableTimeout, s)
          else (.ok (), s.afterReset k.port.reportedSpeed) := by
  refine (leads_resetBus_exact hdelay hT).mono ?_
  rintro r k' (h | ⟨ha, rfl, hr⟩)
  · exact .inl h
  · exact .inr ⟨ha, plugged_afterBusReset k, hr⟩

end Port

end UsbHost.Simulation
