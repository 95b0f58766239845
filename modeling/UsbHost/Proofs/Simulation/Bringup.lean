import UsbHost.Host.Bringup
import UsbHost.Proofs.Simulation.ControlPacket
import UsbHost.Proofs.Simulation.RootPort

/-!
# Bringing up the simulated core

Configuring the core touches many registers and halts every channel, but
nothing of it reaches the device: what is plugged into the port stays plugged
in, the receive queue is left as it is, and the device sees neither a
transaction nor a bus reset.

## Main results

* `write_wired` — what a write to a register of the core alone does.
* `leads_configure` — configuring the core leaves the device alone, and comes to
  an end on a core that is idle.
* `leads_init` — the same from power-on.
-/

namespace UsbHost.Simulation

/-! ## What is wired to the core -/

/-- `k'` is `k` with another device after work of any kind that leaves alone
what is plugged in, the room for packets to be sent and the state of resets. -/
structure Wired (k : Controller) (d : Device) (k' : Controller) : Prop where
  port : k.port.SamePlug k'.port
  npTxStatus : k'.npTxStatus = k.npTxStatus
  resetControl : k'.resetControl = k.resetControl
  clean : k.Clean .control → k'.Clean .control
  device : k'.device = d

namespace Wired

variable {k k' k'' : Controller} {d d' : Device}

theorem refl (k : Controller) : Wired k k.device k :=
  ⟨.refl k.port, rfl, rfl, id, rfl⟩

theorem trans (h : Wired k d k') (h' : Wired k' d' k'') : Wired k d' k'' :=
  ⟨h.port.trans h'.port, h'.npTxStatus.trans h.npTxStatus,
    h'.resetControl.trans h.resetControl, fun hk => h'.clean (h.clean hk),
    h'.device⟩

/-- What leaves the device alone adds nothing. -/
theorem still (h : Wired k d k') (h' : Wired k' k'.device k'') :
    Wired k d k'' := by
  rw [h.device] at h'
  exact h.trans h'

theorem of_rests {c : Channel} (h : Rests c k k') : Wired k k.device k' := by
  have hcore := h.sameCore
  refine ⟨?_, hcore.npTxStatus, hcore.resetControl, h.clean_iff.2, h.device_eq⟩
  rw [hcore.port]
  exact .refl k.port

theorem of_plugged (h : Plugged k d k') : Wired k d k' := by
  obtain ⟨writes, hk⟩ := h.rest
  refine ⟨h.toSamePlug, ?_, ?_, ?_, h.device_eq⟩
  · rw [hk]
  · rw [hk]
  · intro hclean
    rw [hk]
    exact hclean

theorem of_became (h : Became k d k') : Wired k d k' := by
  refine ⟨?_, h.core.npTxStatus, h.core.resetControl, fun _ => h.clean,
    h.device⟩
  rw [h.core.port]
  exact .refl k.port

theorem txSpace_eq (h : Wired k d k') : k'.txSpace = k.txSpace := by
  unfold Controller.txSpace
  rw [h.npTxStatus]

end Wired

/-! ## Writes that stay inside -/

/-- Registers whose writing reaches neither the port nor the bus. -/
def IsInner : Register → Bool
  | .port | .fifo _ | .channel _ .characteristics => false
  | _ => true

/-- A write to a register of the core alone. -/
theorem write_wired {r : Register} (h : IsInner r = true) (k : Controller)
    (v : Word) : Wired k k.device (k.write r v) := by
  cases r with
  | port => exact nomatch h
  | fifo c => exact nomatch h
  | channel c r =>
    cases r with
    | characteristics => exact nomatch h
    | _ => exact ⟨.refl k.port, rfl, rfl, id, rfl⟩
  | _ => exact ⟨.refl k.port, rfl, rfl, id, rfl⟩

/-- A core on which no reset is going on, as far as it says. -/
structure Controller.Idle (k : Controller) : Prop where
  bus : ResetControl.ahbIdle.get ⟨k.resetControl⟩ = true
  core : ResetControl.coreSoftReset.get ⟨k.resetControl⟩ = false
  txFifo : ResetControl.txFifoFlush.get ⟨k.resetControl⟩ = false
  rxFifo : ResetControl.rxFifoFlush.get ⟨k.resetControl⟩ = false

theorem Controller.Idle.wired {k k' : Controller} {d : Device} (h : k.Idle)
    (hk : Wired k d k') : k'.Idle := by
  constructor
  · rw [hk.resetControl]
    exact h.bus
  · rw [hk.resetControl]
    exact h.core
  · rw [hk.resetControl]
    exact h.txFifo
  · rw [hk.resetControl]
    exact h.rxFifo

section Configure

variable {τ α : Type} {T : Prop} {clock : Clock τ} {settings : Settings}
  {k k' : Controller} {d : Device}

/-- A store to a register of the core alone. -/
theorem leads_inner {r : Register} {content : r.Content}
    (hr : IsInner r = true) (hk : Wired k d k') :
    Leads T ((hostOn clock settings).core.store r content) k'
      fun _ => Wired k d :=
  leads_store (hk.still (write_wired hr k' _))

theorem leads_innerOnes {r : Register} (hr : IsInner r = true)
    (hk : Wired k d k') :
    Leads T ((hostOn clock settings).core.storeOnes r) k' fun _ => Wired k d :=
  leads_storeOnes (hk.still (write_wired hr k' _))

/-- A wait for the reset control, which never changes. -/
theorem leads_awaitReset {timeout : Duration} {f : ResetControl → Bool}
    (hk : Wired k d k') (hT : T → f ⟨k'.resetControl⟩ = true) :
    Leads T ((hostOn clock settings).core.waitUntil timeout do
        return f (← (hostOn clock settings).core.load .resetControl)) k'
      fun _ => Wired k d :=
  leads_waitUntil (leads_load_bind rfl (.pure ⟨rfl, rfl⟩)) hT hk

theorem leads_resetCore (hk : Wired k d k')
    (hdelay : T → (hostOn clock settings).core.DelaysReturn)
    (hT : T → k.Idle) :
    Leads T (hostOn clock settings).resetCore k' fun _ => Wired k d := by
  refine (leads_awaitReset hk fun ht => ((hT ht).wired hk).bus).bind ?_
  intro _ k₁ hk₁
  refine (leads_inner rfl hk₁).bind fun _ k₂ hk₂ => ?_
  refine (leads_awaitReset (f := fun c => !ResetControl.coreSoftReset.get c) hk₂
    fun ht => ?_).bind ?_
  · rw [((hT ht).wired hk₂).core]
    rfl
  · intro _ k₃ hk₃
    exact leads_delay hdelay hk₃

theorem leads_emptyFifos (hk : Wired k d k') (hT : T → k.Idle) :
    Leads T (hostOn clock settings).emptyFifos k' fun _ => Wired k d := by
  refine (leads_inner rfl hk).bind fun _ k₁ hk₁ => ?_
  refine (leads_awaitReset (f := fun c => !ResetControl.txFifoFlush.get c) hk₁
    fun ht => ?_).bind ?_
  · rw [((hT ht).wired hk₁).txFifo]
    rfl
  intro _ k₂ hk₂
  refine (leads_inner rfl hk₂).bind fun _ k₃ hk₃ => ?_
  refine (leads_awaitReset (f := fun c => !ResetControl.rxFifoFlush.get c) hk₃
    fun ht => ?_).bind ?_
  · rw [((hT ht).wired hk₃).rxFifo]
    rfl
  · intro _ k₄ hk₄
    exact .pure hk₄

/-- The core is in host mode once it has been forced to be. -/
theorem leads_forceHostMode (hk : Wired k d k')
    (hdelay : T → (hostOn clock settings).core.DelaysReturn) :
    Leads T (hostOn clock settings).forceHostMode k' fun _ => Wired k d := by
  refine leads_load_bind rfl ?_
  refine (leads_store (Q := fun _ k'' => Wired k d k'' ∧
    k''.inHostMode = true) ⟨hk.still (write_wired rfl k' _), ?_⟩).bind ?_
  · show UsbConfig.forceHost.get (UsbConfig.fullSpeedPhy.set true
      (UsbConfig.forceHost.set true (UsbConfig.forceDevice.set false
        ⟨k'.stored .usbConfig⟩))) = true
    simp (disch := decide) only [BitField.get_set_of_disjoint,
      BitField.get_set]
  rintro _ k₁ ⟨hk₁, hmode⟩
  refine (leads_delay (Q := fun _ k'' => k₁ = k'') hdelay rfl).bind ?_
  rintro _ _ rfl
  have hstatus : (Register.interruptStatus.decode
      k₁.interruptStatus.bits).contains CoreInterrupts.hostMode = true := by
    unfold Controller.interruptStatus
    rw [hmode]
    cases k₁.rxStatus.isEmpty <;> rfl
  refine (leads_waitUntil (c := true) (Q := fun _ => Wired k d)
    (leads_load_bind rfl (.pure ⟨hstatus, rfl⟩)) (fun _ => rfl) hk₁).bind ?_
  intro _ k₂ hk₂
  exact .pure hk₂

/-- The sizes of the FIFOs are written if their sum fits. -/
theorem leads_divideFifos (hk : Wired k d k')
    (hT : T → settings.rxFifoWords.toNat + settings.npTxFifoWords.toNat ≤
      65535) :
    Leads T (hostOn clock settings).divideFifos k' fun _ => Wired k d := by
  refine (leads_inner rfl hk).bind fun _ k₁ hk₁ => ?_
  refine (leads_inner rfl hk₁).bind fun _ k₂ hk₂ => ?_
  have hsum : T → (settings.rxFifoWords + settings.npTxFifoWords).toNat =
      settings.rxFifoWords.toNat + settings.npTxFifoWords.toNat := by
    intro ht
    have := hT ht
    rw [BitVec.toNat_add]
    omega
  refine (leads_add (Q := fun _ => Wired k d) hsum hk₂).bind ?_
  exact fun _ k₃ hk₃ => leads_inner rfl hk₃

/-- Every channel is put to rest. -/
theorem leads_armChannels (hk : Wired k d k') :
    Leads T (hostOn clock settings).armChannels k' fun _ => Wired k d := by
  refine (Leads.forM (I := Wired k d) ?_ hk).bind fun _ k₁ hk₁ => ?_
  · intro c k₂ hk₂
    refine (leads_quiesce (Q := fun _ => Wired k d) (.refl c k₂) ?_).bind ?_
    · exact fun k₃ hk₃ => hk₂.still (.of_rests hk₃)
    · intro _ k₃ hk₃
      exact leads_inner rfl hk₃
  · exact leads_inner rfl hk₁

/-- Configuring the core leaves the device alone, and comes to an end on a core
that is idle. -/
theorem leads_configure
    (hdelay : T → (hostOn clock settings).core.DelaysReturn)
    (hT : T → k.Idle ∧
      settings.rxFifoWords.toNat + settings.npTxFifoWords.toNat ≤ 65535) :
    Leads T (hostOn clock settings).configure k fun _ => Wired k k.device := by
  refine (leads_inner rfl (.refl k)).bind fun _ k₁ hk => ?_
  refine (leads_inner rfl hk).bind fun _ k₂ hk => ?_
  refine (leads_resetCore hk hdelay fun ht => (hT ht).1).bind fun _ k₃ hk => ?_
  refine (leads_inner rfl hk).bind fun _ k₄ hk => ?_
  refine (leads_delay (Q := fun _ => Wired k k.device) hdelay hk).bind ?_
  intro _ k₅ hk
  refine (leads_forceHostMode hk hdelay).bind fun _ k₆ hk => ?_
  refine (leads_divideFifos hk fun ht => (hT ht).2).bind fun _ k₇ hk => ?_
  refine (leads_emptyFifos hk fun ht => (hT ht).1).bind fun _ k₈ hk => ?_
  refine (leads_inner rfl hk).bind fun _ k₉ hk => ?_
  refine (leads_inner rfl hk).bind fun _ k₁₀ hk => ?_
  refine (leads_armChannels hk).bind fun _ k₁₁ hk => ?_
  refine (leads_innerOnes rfl hk).bind fun _ k₁₂ hk => ?_
  refine (leads_inner rfl hk).bind fun _ k₁₃ hk => ?_
  refine (leads_inner rfl hk).bind fun _ k₁₄ hk => ?_
  -- Switching the port on keeps its reset line as it is.
  refine (leads_updatePort (Q := fun _ => Wired k k.device) ?_).bind ?_
  · obtain ⟨hoff, hline⟩ := apply_fields { power := some true }
      k₁₄.port.register
    have hreset : HostPort.reset.get k₁₄.port.register = k₁₄.port.resetting :=
      k₁₄.port.register_fields.2.2.2.1
    exact hk.still (.of_plugged (Plugged.held k₁₄ hoff (hline.trans hreset)).1)
  · exact fun _ k₁₅ hk => leads_delay hdelay hk

/-- Powering, identifying and configuring the core leaves the device and what
is known about it alone. -/
theorem leads_init {power : PowerSwitch (Controller × τ)} {s : Link}
    (hpower : Leads T power k fun r k' => k' = k ∧ (T → r = .ok ()))
    (hdelay : T → (hostOn clock settings).core.DelaysReturn)
    (hT : T → isDwc2Id k.coreId = true ∧ k.Idle ∧
      settings.rxFifoWords.toNat + settings.npTxFifoWords.toNat ≤ 65535) :
    Leads T (((hostOn clock settings).init power).run.run s) k fun r k' =>
      Wired k k.device k' ∧ r.2 = s ∧
        (r.1 = .ok () ∨ ¬ T ∧ (r.1 = .error .powerOnFailed ∨
          r.1 = .error (.unknownController k.coreId))) := by
  unfold Host.init
  refine leads_run_lift hpower ?_
  intro granted k' h
  obtain ⟨hk', hgranted⟩ := h
  obtain rfl : k = k' := hk'.symm
  cases granted with
  | error e =>
    refine leads_run_throw ⟨.refl k, rfl, .inr ⟨fun ht => ?_, .inl rfl⟩⟩
    exact nomatch hgranted ht
  | ok _ =>
    refine leads_run_lift (leads_delay (Q := fun _ k' => k = k') hdelay rfl) ?_
    rintro _ _ rfl
    refine leads_run_lift (leads_load (Q := fun id k' =>
      id = k.coreId ∧ k = k') ⟨rfl, rfl⟩) ?_
    rintro _ _ ⟨rfl, rfl⟩
    by_cases hid : isDwc2Id k.coreId = true
    · rw [if_pos hid, HostM.run_lift]
      refine (leads_configure hdelay fun ht => (hT ht).2).bind ?_
      exact fun _ k' hk' => .pure ⟨hk', rfl, .inl rfl⟩
    · rw [if_neg hid]
      refine leads_run_throw ⟨.refl k, rfl, .inr ⟨fun ht => ?_, .inr rfl⟩⟩
      exact hid (hT ht).1

end Configure

end UsbHost.Simulation
