import UsbHost.Proofs.Driver.Course
import UsbHost.Proofs.Firmware.PowerGate
import UsbHost.Proofs.Simulation.RootPort

/-!
# Bus resets

A bus reset is all or nothing.  Either it finds no device and touches nothing,
or it drives the reset and polls the port until a reading shows it up; then, and
only then, the driver forgets what it knew of the device.  If no reading does so
in time, what it knew stays.  On the simulated core a device that is attached to
a port that is not stuck is always found, whatever state the port was left in.

## Main results

* `Driven`, `Looked`, `Polled`, `Awaited` — the parts of a bus reset, event by
  event.
* `BusReset` — whole bus resets and what they come to.
* `traces_resetBus` — what a bus reset does on any hardware.
* `resetBus_all_or_nothing` — the same in terms of the driver's state, and the
  port and the device that it leaves on the simulated core.
-/

namespace UsbHost

open Run

variable {σ : Type} {host : Host σ} {settings : Settings} {s s' : Link}
  {events : List (Event Register)}

/-! ## The language of bus resets -/

/-- The port is read and at once written for a purpose. -/
def Rewritten (p : PortPurpose) (events : List (Event Register)) : Prop :=
  ∃ before value, p.Writes before value ∧
    events = [.read .port before, .write .port value]

/-- Every pending change is acknowledged, and the reset is begun and ended, each
of it followed by a pause. -/
inductive Driven : List (Event Register) → Prop
  | intro {acknowledged rest begun hold ended settle : List (Event Register)}
    (hacknowledged : Rewritten .acknowledge acknowledged)
    (hrest : ∀ e ∈ rest, e.IsTime) (hbegun : Rewritten .beginReset begun)
    (hhold : ∀ e ∈ hold, e.IsTime) (hended : Rewritten .endReset ended)
    (hsettle : ∀ e ∈ settle, e.IsTime) :
    Driven (acknowledged ++ (rest ++ (begun ++ (hold ++ (ended ++ settle)))))

/-- The port is looked at and shows `v`.  If it tells that it has come up or
gone down since, this is acknowledged. -/
inductive Looked (v : Word) : List (Event Register) → Prop
  | unchanged (hv : v.getLsbD 3 = false) : Looked v [.read .port v]
  | changed {acknowledged : List (Event Register)}
    (hv : v.getLsbD 3 = true)
    (hacknowledged : Rewritten .acknowledgeEnabled acknowledged) :
    Looked v (.read .port v :: acknowledged)

/-- Rounds in which the port is seen down and the deadline has not come. -/
inductive Polled (d : Deadline) : List (Event Register) → Prop
  | start : Polled d []
  | round {before looked checked pause : List (Event Register)} {v : Word}
    (hbefore : Polled d before) (hlooked : Looked v looked)
    (hdown : v.getLsbD 2 = false)
    (hchecked : ∀ e ∈ checked, ∃ t, e = .clock t ∧ d.reached t = false)
    (hpause : ∀ e ∈ pause, e.IsTime) :
    Polled d (before ++ (looked ++ (checked ++ pause)))

/-- The speed that a reading of the port tells. -/
def Word.portSpeed (v : Word) : Speed :=
  .ofCode (v.extractLsb' 17 2).toNat

/-- The port is polled until it is seen up, or until it is seen down and a
reading of the clock after that is late by the reading with which the wait
began. -/
inductive Awaited (timeout : Duration) :
    List (Event Register) → Option Speed → Prop
  | up {start : Duration} {polled looked : List (Event Register)} {v : Word}
    (hpolled : Polled (.ofStart start timeout) polled)
    (hlooked : Looked v looked) (hup : v.getLsbD 2 = true) :
    Awaited timeout (.clock start :: (polled ++ looked)) (some v.portSpeed)
  | expired {start t : Duration} {polled looked : List (Event Register)}
    {v : Word} (hpolled : Polled (.ofStart start timeout) polled)
    (hlooked : Looked v looked) (hdown : v.getLsbD 2 = false)
    (hlate : start.nanos + timeout.nanos ≤ t.nanos) :
    Awaited timeout (.clock start :: (polled ++ (looked ++ [.clock t]))) none

/-- The events of a bus reset, its result, and what the driver knows about the
device afterwards. -/
inductive BusReset (timeout : Duration) (s : Link) :
    List (Event Register) → Except UsbError Unit × Link → Prop
  | absent {v : Word} (hv : v.getLsbD 0 = false) :
    BusReset timeout s [.read .port v] (.error .noDevice, s)
  | up {v : Word} {driven awaited : List (Event Register)} {speed : Speed}
    (hv : v.getLsbD 0 = true) (hdriven : Driven driven)
    (hawaited : Awaited timeout awaited (some speed)) :
    BusReset timeout s (.read .port v :: (driven ++ awaited))
      (.ok (), s.afterReset speed)
  | down {v : Word} {driven awaited : List (Event Register)}
    (hv : v.getLsbD 0 = true) (hdriven : Driven driven)
    (hawaited : Awaited timeout awaited none) :
    BusReset timeout s (.read .port v :: (driven ++ awaited))
      (.error .portEnableTimeout, s)

/-! ## The steps of a bus reset -/

theorem traces_updatePort {p : PortPurpose} {change : PortControl}
    (h : ∀ v, p.Writes v (change.apply (HostPort.quiet ⟨v⟩)).raw) :
    (host.core.updatePort change).Traces (fun events _ => Rewritten p events)
      fun _ => False := by
  refine (traces_load .port).after ?_
  rintro _ _ ⟨v, rfl, rfl⟩
  refine (traces_store _ _).mono ?_
  rintro _ _ rfl
  exact ⟨v, _, h v, rfl⟩

theorem traces_acknowledgePort {p : PortPurpose} {changes : PortChanges}
    (h : ∀ v, p.Writes v ((HostPort.quiet ⟨v⟩).raw ||| changes.bits)) :
    (host.core.acknowledgePort changes).Traces
      (fun events _ => Rewritten p events) fun _ => False := by
  refine (traces_load .port).after ?_
  rintro _ _ ⟨v, rfl, rfl⟩
  refine (traces_store _ _).mono ?_
  rintro _ _ rfl
  exact ⟨v, _, h v, rfl⟩

/-- Driving the reset line of a port with a device. -/
def Host.driveReset (host : Host σ) : Run Register σ Unit := do
  host.core.acknowledgePort FlagSet.all
  host.core.delay host.settings.portPollInterval
  host.core.updatePort { reset := some true }
  host.core.delay host.settings.resetHold
  host.core.updatePort { reset := some false }
  host.core.delay host.settings.resetSettle

/-- A bus reset, step by step. -/
theorem run_resetBus (host : Host σ) (s : Link) :
    host.resetBus.run.run s = (do
      let connected ← host.isConnected
      if !connected then pure (.error .noDevice, s)
      else do
        host.driveReset
        match ← host.awaitEnabled with
        | some speed => pure (.ok (), s.afterReset speed)
        | none => pure (.error .portEnableTimeout, s)) := by
  unfold Host.resetBus Host.driveReset
  rw [HostM.run_lift_bind]
  refine bind_congr fun connected => ?_
  cases connected with
  | false => rfl
  | true =>
    rw [if_neg (by decide), if_neg (by decide)]
    simp only [HostM.run_lift_bind, bind_assoc]
    iterate 6 refine bind_congr fun _ => ?_
    refine bind_congr fun speed? => ?_
    cases speed? with
    | none => rfl
    | some speed => rfl

theorem traces_isConnected :
    host.isConnected.Traces (fun events connected =>
      ∃ v, events = [.read .port v] ∧ connected = v.getLsbD 0)
      fun _ => False := by
  refine (traces_load .port).after ?_
  rintro _ _ ⟨v, rfl, rfl⟩
  exact .pure ⟨v, rfl, BitField.get_flag _ _⟩

theorem traces_driveReset :
    host.driveReset.Traces (fun events _ => Driven events) fun _ => True := by
  have hpause := fun d => (host.core.traces_delay d (E := Event.IsTime)
    (fun _ => trivial) fun _ => trivial).weaken fun _ _ => trivial
  refine (traces_acknowledgePort (p := .acknowledge) fun v =>
    acknowledge_writes rfl (by decide) v).after ?_
  intro _ _ hacknowledged
  refine (hpause _).bind (fun _ _ => trivial) ?_
  intro _ _ hrest
  refine (traces_updatePort (p := .beginReset) fun v =>
    change_writes _ rfl rfl (by decide) v).after ?_
  intro _ _ hbegun
  refine (hpause _).bind (fun _ _ => trivial) ?_
  intro _ _ hhold
  refine (traces_updatePort (p := .endReset) fun v =>
    change_writes _ rfl rfl (by decide) v).after ?_
  intro _ _ hended
  refine (hpause _).mono ?_
  intro _ _ hsettle
  exact .intro hacknowledged hrest hbegun hhold hended hsettle

/-- A look at the port, and what follows it. -/
theorem traces_look {α : Type} {f : HostPort → Run Register σ α}
    {Q : List (Event Register) → α → Prop}
    (hf : ∀ v looked, Looked v looked → (f ⟨v⟩).Traces
      (fun later a => Q (looked ++ later) a) fun _ => True) :
    (do
      let port ← host.core.load .port
      if HostPort.enableChanged.get port then
        host.core.acknowledgePort PortChanges.enableChanged
      f port).Traces Q fun _ => True := by
  refine (traces_load .port).after ?_
  rintro _ _ ⟨v, rfl, rfl⟩
  have hchanged : HostPort.enableChanged.get (Register.port.decode v) =
      v.getLsbD 3 :=
    BitField.get_flag _ _
  dsimp only
  rw [hchanged]
  split
  next hv =>
    refine (traces_acknowledgePort (p := .acknowledgeEnabled) fun v =>
      acknowledge_writes rfl (by decide) v).after ?_
    intro acknowledged _ hacknowledged
    exact hf v _ (.changed hv hacknowledged)
  next hv => exact hf v _ (.unchanged (Bool.eq_false_iff.2 hv))

theorem traces_awaitEnabled :
    host.awaitEnabled.Traces (Awaited host.settings.portEnableTimeout)
      fun _ => True := by
  have hpause := (host.core.traces_delay host.settings.portPollInterval
    (E := Event.IsTime) (fun _ => trivial) fun _ => trivial).weaken
      fun _ _ => trivial
  refine (host.core.traces_deadlineAfter _).after ?_
  rintro _ deadline ⟨start, rfl, rfl⟩
  refine .loop (fun seen _ =>
    Polled (.ofStart start host.settings.portEnableTimeout) seen)
    (fun _ _ _ => trivial) (fun seen _ hseen => ?_) .start
  refine traces_look fun v looked hlooked => ?_
  have henabled : HostPort.enabled.get ⟨v⟩ = v.getLsbD 2 :=
    BitField.get_flag _ _
  have hspeed : HostPort.speed.get ⟨v⟩ = v.extractLsb' 17 2 := rfl
  rw [henabled, hspeed]
  cases hv : v.getLsbD 2 with
  | true =>
    have hawaited := Awaited.up hseen hlooked hv
    refine .pure ?_
    rw [List.append_nil]
    exact hawaited
  | false =>
    refine (host.core.traces_expired _).after fun checked late hchecked => ?_
    cases late with
    | true =>
      obtain ⟨-, h⟩ | ⟨t, rfl, ht⟩ := hchecked
      · exact nomatch h
      have hlate := Deadline.reached_ofStart_iff.1 ht.symm
      have hawaited := Awaited.expired hseen hlooked hv hlate
      refine .pure ?_
      rw [List.append_nil]
      exact hawaited
    | false =>
      have hearly : ∀ e ∈ checked, ∃ t, e = .clock t ∧
          (Deadline.ofStart start host.settings.portEnableTimeout).reached t =
            false := by
        obtain ⟨rfl, -⟩ | ⟨t, rfl, ht⟩ := hchecked
        · exact nofun
        · exact List.forall_mem_singleton.2 ⟨t, rfl, ht.symm⟩
      refine hpause.bind (fun _ _ => trivial) fun pause _ hpassed => .pure ?_
      rw [List.append_nil]
      exact .round hseen hlooked hv hearly hpassed

/-- What a bus reset does on any hardware. -/
theorem traces_resetBus (host : Host σ) (s : Link) :
    (host.resetBus.run.run s).Traces
      (BusReset host.settings.portEnableTimeout s) fun _ => True := by
  rw [run_resetBus]
  refine traces_isConnected.after ?_
  rintro _ _ ⟨v, rfl, rfl⟩
  cases hv : v.getLsbD 0 with
  | false => exact .pure (.absent hv)
  | true =>
    refine traces_driveReset.bind (fun _ _ => trivial) ?_
    intro driven _ hdriven
    refine traces_awaitEnabled.bind (fun _ _ => trivial) ?_
    intro awaited speed? hawaited
    cases speed? with
    | some speed =>
      have hreset := BusReset.up (s := s) hv hdriven hawaited
      refine .pure ?_
      rw [List.append_nil]
      exact hreset
    | none =>
      have hreset := BusReset.down (s := s) hv hdriven hawaited
      refine .pure ?_
      rw [List.append_nil]
      exact hreset

/-! ## All or nothing -/

namespace BusReset

variable {timeout : Duration} {r : Except UsbError Unit}

/-- What the driver knows changes only by a reset that succeeds. -/
theorem unchanged (h : BusReset timeout s events (r, s')) (hr : r ≠ .ok ()) :
    s' = s := by
  cases h with
  | absent hv => rfl
  | up hv hdriven hawaited => exact absurd rfl hr
  | down hv hdriven hawaited => rfl

/-- The first reading tells whether there is a device.  If there is none, it is
the only thing that happens. -/
theorem first (h : BusReset timeout s events (r, s')) :
    ∃ v rest, events = .read .port v :: rest ∧
      (r = .error .noDevice ↔ v.getLsbD 0 = false) ∧
      (v.getLsbD 0 = false → rest = []) := by
  have hpresent : ∀ {v : Word}, v.getLsbD 0 = true → ¬ v.getLsbD 0 = false :=
    fun hv => ne_false_of_eq_true hv
  cases h with
  | absent hv => exact ⟨_, _, rfl, iff_of_true rfl hv, fun _ => rfl⟩
  | up hv hdriven hawaited =>
    exact ⟨_, _, rfl, iff_of_false nofun (hpresent hv),
      fun h => absurd h (hpresent hv)⟩
  | down hv hdriven hawaited =>
    exact ⟨_, _, rfl, iff_of_false nofun (hpresent hv),
      fun h => absurd h (hpresent hv)⟩

end BusReset

open Simulation in
/-- A bus reset is all or nothing.  On every hardware its events are those of a
bus reset: the first look at the port decides whether there is a device, and if
not nothing else happens; what the driver knows changes just if a look at the
port shows it up; and it is given up only when every look of the poll has shown
the port down and the time for it has passed.  On the simulated core, with a
device on a port that is not stuck, it succeeds, whichever changes are pending
and whatever state the port and the device have been left in. -/
theorem resetBus_all_or_nothing (s : Link) :
    (∀ (σ : Type) (host : Host σ) n w r s' w',
      host.resetBus.run.run s n w = .ok (r, s') w' →
      ∃ events, w.Through events w' ∧
        BusReset host.settings.portEnableTimeout s events (r, s') ∧
        (r ≠ .ok () → s' = s) ∧
        ∃ v rest, events = .read .port v :: rest ∧
          (r = .error .noDevice ↔ v.getLsbD 0 = false) ∧
          (v.getLsbD 0 = false → rest = [])) ∧
    ∀ (τ : Type) (clock : Clock τ) (settings : Settings)
      (w : World Register (Controller × τ)),
      (hostOn clock settings).core.DelaysReturn →
      w.env.1.port.attached = true → w.env.1.port.stuck = false →
      let k := w.env.1
      ∃ w' enough,
        (∀ n, enough ≤ n →
          (hostOn clock settings).resetBus.run.run s n w =
            .ok (.ok (), s.afterReset k.port.reportedSpeed) w') ∧
        w'.env.1 = { k with
          port := { k.port with
            enabled := true
            enableChanged := false
            connectDetected := false
            overcurrentChanged := false
            resetting := false
            writes := k.port.writes + 4 }
          device := { k.device with
            address := 0
            configuration := none
            control := none }
          writes := k.writes + 4 } := by
  constructor
  · intro σ host n w r s' w' hrun
    obtain ⟨events, hevents, hreset⟩ :=
      (traces_resetBus host s).of_run hrun
    exact ⟨events, hevents, hreset, hreset.unchanged, hreset.first⟩
  · intro τ clock settings w hdelays hattached hfree k
    obtain ⟨⟨r, s'⟩, w', enough, hends, hrun⟩ := (leads_resetBus_exact
      (s := s) (fun _ => hdelays) (fun _ => hfree) w rfl).exists_run trivial
    obtain ⟨ha, -, -⟩ | ⟨-, hk, hr⟩ := hends
    · rw [hattached] at ha
      exact nomatch ha
    · rw [hfree] at hr
      obtain ⟨rfl, rfl⟩ := hr
      refine ⟨w', enough, hrun, hk.trans ?_⟩
      unfold afterBusReset
      rw [hfree]
      rfl

open Simulation in
/-- A port in the middle of a reset, with every change pending, and a low-speed
device that has been configured. -/
def disturbedCore : Controller where
  port :=
    { enabled := true
      enableChanged := true
      connectDetected := true
      overcurrentChanged := true
      resetting := true
      powered := true
      speed := 2 }
  device := { address := 5, configuration := some 1 }

open Simulation in
/-- It comes up, and the driver knows its speed and address. -/
theorem disturbed_core_reset :
    let clock : Clock Unit := ⟨fun c => (.zero, c), some fun _ c => c⟩
    let host := hostOn clock {}
    let w : World Register (Controller × Unit) := ⟨(disturbedCore, ()), []⟩
    let s : Link := { address := 5, ep0MaxPacket := 64, enumerated := true }
    host.core.DelaysReturn ∧ disturbedCore.port.attached = true ∧
      disturbedCore.port.stuck = false ∧
    ∃ w' enough events,
      host.resetBus.run.run s enough w = .ok (.ok (), { speed := .low }) w' ∧
      w.Through events w' ∧
      BusReset host.settings.portEnableTimeout s events
        (.ok (), { speed := .low }) ∧
      w'.env.1.port =
        { enabled := true, connectDetected := false, powered := true,
          speed := 2, writes := 4 } ∧
      w'.env.1.device = {} := by
  intro clock host w s
  have hdelays : host.core.DelaysReturn :=
    Machine.delaysReturn_of_skip _ rfl
  obtain ⟨hreset, hsimulated⟩ := resetBus_all_or_nothing s
  obtain ⟨w', enough, hrun, hk⟩ :=
    hsimulated Unit clock {} w hdelays rfl rfl
  have hends := hrun enough (Nat.le_refl enough)
  obtain ⟨events, hevents, hcourse, -⟩ := hreset _ host _ _ _ _ _ hends
  refine ⟨hdelays, rfl, rfl, w', enough, events, hends, hevents, hcourse,
    ?_, ?_⟩
  · rw [hk]
    rfl
  · rw [hk]
    rfl

end UsbHost
