import UsbHost.Proofs.Simulation.Agreement
import UsbHost.Proofs.Simulation.Framing

/-!
# A device that has been found

Bring-up and enumeration that succeed have found the device, wherever they
started and whatever the driver believed before: it answers where the driver
takes it to be, its endpoint is known, and its next report is the first one.

## Main results

* `withstands_honest` — no packet changes what a device is forced to.
* `achieves_enumerate`, `achieves_start` — what is known after success.
* `found` — where the device is after success.
-/

namespace UsbHost

open HostM

/-! ## What is known -/

/-- The device is enumerated, its endpoint is known, and none of its reports has
been read. -/
structure Link.Fresh (s : Link) : Prop where
  enumerated : s.enumerated = true
  endpoint : s.hid.isSome = true
  unread : s.toggle = false

section Known

variable {σ : Type} {host : Host σ}

theorem achieves_enumerate :
    Achieves (fun _ => True) Link.Fresh host.enumerate := by
  unfold Host.enumerate
  refine .rest fun _ => .rest fun _ => .rest fun _ => .rest fun _ => ?_
  refine .rest fun _ => .rest fun _ => .rest fun _ => .rest fun _ => ?_
  refine .rest fun _ => .rest fun _ => .rest fun _ => ?_
  refine .rest fun configuration => ?_
  cases HidEndpoint.find? configuration with
  | none => exact .throw _
  | some hid =>
    have hfound : Achieves (σ := σ) (fun _ => True)
        (fun s => s.hid.isSome = true ∧ s.toggle = false)
        (modify ({ · with hid := some hid, toggle := false })) :=
      .modify fun _ _ => ⟨rfl, rfl⟩
    refine hfound.bind fun _ => (Achieves.of_keeps (keeps_request _ _)).bind ?_
    exact fun _ => .modify fun s hs => ⟨rfl, hs.1, hs.2⟩

theorem achieves_start (power : PowerSwitch σ) (timeout : Duration) :
    Achieves (fun _ => True) Link.Fresh (host.start power timeout) := by
  unfold Host.start
  refine .rest fun _ => .rest fun found => ?_
  cases found with
  | false => exact .throw _
  | true =>
    refine .rest fun _ => achieves_enumerate.bind fun _ => ?_
    exact .of_keeps keeps_trySetIdle

end Known

namespace Simulation

open Run

variable {τ : Type} {clock : Clock τ} {settings : Settings} {k : Controller}
  {s : Link}

/-! ## What a device is forced to -/

theorem Device.respond_forced (d : Device) (t : Transaction) :
    (d.respond t).2.forced = d.forced := by
  rcases Option.eq_none_or_eq_some d.forced with hf | ⟨response, hf⟩
  · unfold respond
    rw [hf]
    dsimp only
    split
    · exact hf
    · split
      · rfl
      · split
        · exact (d.controlTransaction_keeps t).2.trans hf
        · split
          · cases d.reports with
            | nil => exact hf
            | cons report rest => rfl
          · exact hf
  · rw [respond_of_forced d hf]

theorem device_read (r : Register) : (k.read r).2.device = k.device := by
  cases r <;> rfl

/-- No access apart from the port's changes what the device is forced to. -/
theorem withstands_honest : (hostOn clock settings).Withstands
    fun w => w.env.1.device.Honest := by
  have hread : ∀ r, Preserves (fun w => w.env.1.device.Honest)
      ((hostOn clock settings).core.read r) := by
    refine fun r w hw => .of_eq (fun _ => rfl) ?_
    show (w.env.1.read r).2.device.Honest
    rw [device_read]
    exact hw
  refine
    { now := fun _ hw => .of_eq (fun _ => rfl) hw
      skip := fun f d w hf hw => ?_
      barrier := fun _ hw => .of_eq (fun _ => rfl) hw
      read := fun r _ => hread r
      write := fun r v hr w hw => .of_eq (fun _ => rfl) ?_
      drain := Host.preserves_drain fun r _ => hread r }
  · obtain ⟨g, -, rfl⟩ := Option.map_eq_some_iff.1 hf
    exact hw
  · intro data
    show (w.env.1.write r v).device.forced ≠ _
    rcases write_cases hr v with hstill | ⟨k₁, t, hstill, hk⟩
    · rw [hstill.device]
      exact hw data
    · rw [hk, (execute_cases t).2.1, Device.respond_forced, hstill.device]
      exact hw data

/-! ## Where the device is -/

/-- Enumeration that succeeds has the device where the driver takes it to be. -/
theorem leads_enumerate_found (hhonest : k.device.Honest) :
    Leads False ((hostOn clock settings).enumerate.run.run s) k fun r k' =>
      r.1 = .ok () → Tracks r.2 k'.device false := by
  have hkept : HostM.Preserves
      (fun w : World Register (Controller × τ) => w.env.1.device.Honest)
      ((hostOn clock settings).readDescriptor .device 8) :=
    withstands_honest.request _ _
  have hknown : HostM.Keeps (fun s => s.enumerated = false)
      ((hostOn clock settings).readDescriptor .device 8) := keeps_request _ _
  refine leads_enumerate_of_head false
    (R := fun r k' => r.2.enumerated = false ∧ k'.device.Honest)
    ?_ (fun _ _ _ _ => nofun) (fun _ _ _ h => ⟨h.2, h.1⟩) ?_
  · intro w hw
    subst hw
    exact (hkept _ w hhonest).and_yields (hknown _ w rfl)
  · rintro ⟨r, s'⟩ k' h rfl
    exact h

/-- Bring-up that succeeds has the device where the driver takes it to be. -/
theorem leads_start_found {power : PowerSwitch (Controller × τ)}
    {timeout : Duration} (hhonest : k.device.Honest)
    (hpower : Leads False power k fun _ k' => k' = k) :
    Leads False (((hostOn clock settings).start power timeout).run.run s) k
      fun r k' => r.1 = .ok () → Tracks r.2 k'.device false := by
  unfold Host.start
  refine leads_run_bind (leads_init (hpower.mono fun _ _ hk => ⟨hk, False.elim⟩)
    False.elim False.elim) ?_ fun _ _ _ _ => nofun
  rintro _ s₁ k₁ ⟨hk₁, -, -⟩
  refine leads_run_lift (leads_awaitDevice False.elim False.elim) ?_
  rintro found k₁ ⟨rfl, rfl⟩
  cases k₁.port.attached with
  | false => exact .pure nofun
  | true =>
    rw [if_neg (by decide)]
    refine leads_run_bind (leads_resetBus False.elim False.elim) ?_
      fun _ _ _ _ => nofun
    intro _ s₂ k₂ h₂
    have hhonest₂ : k₂.device.Honest := by
      rcases h₂ with ⟨-, -, rfl⟩ | ⟨-, hk₂, -⟩
      · rw [hk₁.device]
        exact hhonest
      · rw [hk₂.device_eq, hk₁.device]
        exact hhonest
    refine leads_run_bind (leads_enumerate_found hhonest₂) ?_
      fun _ _ _ _ => nofun
    intro _ s₃ k₃ h₃
    have h₃ := h₃ rfl
    refine (leads_trySetIdle h₃.honest h₃.sized False.elim).mono ?_
    rintro _ k₄ ⟨rfl, hstanding⟩ _
    exact h₃.standing hstanding

/-- The operations that find the device. -/
def Finds : Operation (Controller × τ) → Prop
  | .start power _ => ∀ k, Leads False power k fun _ k' => k' = k
  | .enumerate => True
  | _ => False

/-- An operation that finds the device has it where the driver takes it to be,
with an endpoint of which nothing has been read. -/
theorem found {operation : Operation (Controller × τ)} (ho : Finds operation)
    {driver driver' : Driver} {patience : Nat}
    {w w' : World Register (Controller × τ)}
    (hhonest : w.env.1.device.Honest)
    (hrun : operation.perform (hostOn clock settings) driver patience w =
      .ok (.finished (.ok ()), driver') w') :
    driver'.pad = driver.pad ∧ driver'.state.Fresh ∧
      Tracks driver'.state w'.env.1.device false := by
  have hfinds : ∀ {p : HostM (Controller × τ) Unit},
      HostM.Achieves (fun _ => True) Link.Fresh p →
      Leads False (p.run.run driver.state) w.env.1 (fun r k' =>
        r.1 = .ok () → Tracks r.2 k'.device false) →
      Operation.onDevice driver p patience w =
        .ok (.finished (.ok ()), driver') w' →
      driver'.pad = driver.pad ∧ driver'.state.Fresh ∧
        Tracks driver'.state w'.env.1.device false := by
    intro p hfresh htracks hrun
    obtain ⟨r, hr, hpad, hp⟩ := run_of_onDevice hrun
    cases hr
    exact ⟨hpad, (hfresh _ w trivial).of_run hp () rfl,
      htracks.of_run rfl hp rfl⟩
  cases operation with
  | start power timeout =>
    exact hfinds (achieves_start power timeout)
      (leads_start_found hhonest (ho _)) hrun
  | enumerate =>
    exact hfinds achieves_enumerate (leads_enumerate_found hhonest) hrun
  | _ => exact ho.elim

end Simulation

end UsbHost
