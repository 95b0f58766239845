import UsbHost.Proofs.Simulation.Enumeration

/-!
# Bring-up from power-on

Whatever the driver believed before and wherever the device was, bring-up on an
idle core comes to an end, with the device where the driver takes it to be.

## Main results

* `start_complete` — the result of bring-up, what is known afterwards, and what
  has become of the device.
-/

namespace UsbHost.Simulation

variable {τ : Type} {clock : Clock τ} {settings : Settings}

/-- Bring-up comes to an end and succeeds just if the first 64 bytes of the
configuration name an endpoint that can be polled.  What is known afterwards is
exact: the address, the packet size of endpoint 0 from the device descriptor,
the endpoint with a fresh toggle, and the speed that the port reports.  Without
such an endpoint the device keeps its address but is not configured, and what
was known of an endpoint before is still there. -/
theorem start_complete {w : World Register (Controller × τ)} {s : Link}
    {power : PowerSwitch (Controller × τ)} (timeout : Duration)
    (h : Startable clock settings w.env.1)
    (hpower : Leads True power w.env.1 fun granted k' =>
      k' = w.env.1 ∧ granted = .ok ()) :
    let d := w.env.1.device
    let read := d.configurationDescriptor.take 64
    ∃ result known enough w',
      (∀ patience, enough ≤ patience →
        ((hostOn clock settings).start power timeout).run.run s patience w =
          .ok (result, known) w') ∧
      w'.env.1.device.address = 1 ∧
      match HidEndpoint.find? read with
      | some hid =>
        result = .ok () ∧
        known =
          { address := 1
            ep0MaxPacket := d.ep0Size
            hid := some hid
            toggle := false
            enumerated := true
            speed := .ofCode (w.env.1.port.speed.setWidth 2).toNat } ∧
        w'.env.1.device.configuration = some (configurationValue read)
      | none =>
        result = .error .noInterruptEndpoint ∧
        known =
          { address := 1
            ep0MaxPacket := d.ep0Size
            hid := s.hid
            toggle := s.toggle
            enumerated := false
            speed := .ofCode (w.env.1.port.speed.setWidth 2).toNat } ∧
        w'.env.1.device.configuration = none := by
  intro d read
  obtain ⟨⟨result, known⟩, w', enough, ⟨ha, hfound⟩, hrun⟩ :=
    (leads_start (s := s) timeout h hpower w rfl).exists_run trivial
  refine ⟨result, known, enough, w', hrun, ha, ?_⟩
  cases hfind : HidEndpoint.find? read with
  | some hid =>
    rw [hfind] at hfound
    obtain ⟨hr, hc⟩ := hfound
    cases hr
    exact ⟨rfl, rfl, hc⟩
  | none =>
    rw [hfind] at hfound
    obtain ⟨hr, hc⟩ := hfound
    cases hr
    exact ⟨rfl, rfl, hc⟩

/-- A gamepad on a fresh core is brought up. -/
theorem gamepad_started :
    ∃ enough w',
      (∀ patience, enough ≤ patience →
        ((hostOn (Bench.TickingClock.clock false) {}).start
            PowerSwitch.alwaysOn (.ofMillis 100)).run.run {} patience
            freshBench =
          .ok (.ok (),
            { address := 1
              ep0MaxPacket := 64
              hid := some ⟨1, 32, 0⟩
              enumerated := true }) w') ∧
      w'.env.1.device.address = 1 ∧ w'.env.1.device.configuration = some 1 := by
  have hpower : Leads True
      (PowerSwitch.alwaysOn : PowerSwitch (Controller × Bench.TickingClock))
      freshBench.env.1 fun granted k' =>
        k' = freshBench.env.1 ∧ granted = .ok () := .pure ⟨rfl, rfl⟩
  obtain ⟨result, known, enough, w', hrun, ha, hfound⟩ :=
    start_complete (s := {}) (.ofMillis 100) freshBench_startable hpower
  have hfind : HidEndpoint.find?
      (freshBench.env.1.device.configurationDescriptor.take 64) =
        some ⟨1, 32, 0⟩ := by decide
  rw [hfind] at hfound
  obtain ⟨rfl, rfl, hc⟩ := hfound
  exact ⟨enough, w', hrun, ha, hc⟩

end UsbHost.Simulation
