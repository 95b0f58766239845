import UsbHost.Proofs.Driver.Programming
import UsbHost.Proofs.Host.Protocol

/-!
# Requests to a device that is not enumerated

Three requests make sense only for an enumerated device.  Polling for a report
and selecting an interface ask whether it is; the request to report on change
only asks for something else, whether an endpoint has been found.  The two are
not the same: a bus reset ends the enumeration but the endpoint stays known, and
so it does when an enumeration fails after it has been found.

## Main results

* `keeps_located` — an endpoint that has been found is never forgotten.
* `controlTransfer_fails` — a control transfer fails with an exchange.
* `always_setIdle_begun` — with an endpoint known, the request goes out.
-/

namespace UsbHost

/-! ## How control transfers fail -/

namespace Protocol

/-- If the result is a failure, an exchange has failed. -/
def FailsByExchange (result : Except UsbError Nat) : Prop :=
  ∀ e, result = .error e → ∃ stage cause, e = .transfer stage cause

variable {limit : Nat} {steps : List Step} {result : Except UsbError Nat}

theorem packetStage_fails {stage : Stage} {p : Packet}
    (h : packetStage limit stage p steps result) : FailsByExchange result := by
  cases h with
  | @intro _ moved _ =>
    intro e he
    cases hr : moved.result with
    | ok count =>
      rw [hr] at he
      exact nomatch he
    | error cause =>
      rw [hr] at he
      cases he
      exact ⟨stage, cause, rfl⟩

/-- What fails in one of its parts fails as that part does. -/
theorem andThen_fails {first : Course} {next : Nat → Course}
    (h : first.andThen next steps result)
    (hfirst : ∀ steps r, first steps r → FailsByExchange r)
    (hnext : ∀ count steps r, next count steps r → FailsByExchange r) :
    FailsByExchange result := by
  cases h with
  | failed h => exact hfirst _ _ h
  | followed _ h => exact hnext _ _ _ h

theorem dataStage_fails {direction : Direction} {total size k moved : Nat}
    {buffer : List Byte}
    (h : DataStage limit direction total size buffer k moved steps result) :
    FailsByExchange result := by
  induction h with
  | complete => exact nofun
  | failed _ h => exact packetStage_fails h
  | short => exact nofun
  | more _ _ _ _ _ ih => exact ih

theorem statusStage_fails {direction : Direction} {count : Nat}
    (h : statusStage limit direction count steps result) :
    FailsByExchange result := by
  refine andThen_fails h (fun _ _ h => packetStage_fails h) fun _ _ _ h => ?_
  cases h
  exact nofun

/-- A control transfer fails only because one of its exchanges does. -/
theorem controlTransfer_fails {size : Nat} {setup : SetupPacket}
    {buffer : List Byte}
    (h : controlTransfer limit size setup buffer steps result) :
    FailsByExchange result := by
  refine andThen_fails h (fun _ _ h => packetStage_fails h) fun _ _ _ h => ?_
  split at h
  · exact andThen_fails h (fun _ _ h => dataStage_fails h)
      fun _ _ _ h => statusStage_fails h
  · exact statusStage_fails h

end Protocol

open Run
open HostM (run_bind run_get run_lift_bind)

variable {σ : Type} {host : Host σ} {s : Link}

/-- The request to report on change only is not refused as long as an endpoint
is known. -/
theorem setIdle_not_refused (hs : s.hid.isSome = true) (w : World Register σ) :
    (host.setIdle.run.run s).Yields False w
      fun r _ => r.1 ≠ .error .notEnumerated := by
  obtain ⟨hid, hhid⟩ := Option.isSome_iff_exists.1 hs
  have hrequest : ((host.request (.setIdle hid.interface 0) []).run.run
      s).Yields False w fun r _ =>
        ∀ e, r.1 = .error e → e ≠ .notEnumerated := by
    unfold Host.request
    rw [run_bind, run_get, pure_bind]
    dsimp only
    rw [run_lift_bind]
    refine (Protocol.yields_control _ _ w).bind fun moved w' h => ?_
    obtain ⟨steps, hcourse, -⟩ := h
    cases hr : moved.result with
    | ok count => exact .pure nofun
    | error e =>
      refine .pure ?_
      rintro _ ⟨⟩ rfl
      obtain ⟨stage, cause, h⟩ := Protocol.controlTransfer_fails hcourse _ hr
      exact nomatch h
  unfold Host.setIdle
  rw [run_bind, run_get, pure_bind]
  dsimp only
  rw [hhid]
  dsimp only
  rw [run_bind]
  refine hrequest.bind fun r w' h => ?_
  obtain ⟨r, s'⟩ := r
  cases r with
  | ok a => exact .pure nofun
  | error e =>
    refine .pure fun he => ?_
    exact h e rfl (Except.error.inj he)

/-! ## Going out -/

/-- Since `w`, an exchange on channel `c` has begun, with the first thing that
an exchange does. -/
def Begun (c : Channel) (w w' : World Register σ) : Prop :=
  ∃ v, (.read (.channel c .characteristics) v :: w.log) <:+ w'.log

theorem Begun.cons {c : Channel} {w w' : World Register σ} (h : Begun c w w')
    (e : Event Register) (env : σ) : Begun c w ⟨env, e :: w'.log⟩ := by
  obtain ⟨v, h⟩ := h
  exact ⟨v, h.trans (List.suffix_cons e w'.log)⟩

/-- What has begun has begun. -/
theorem withstands_begun (c : Channel) (w : World Register σ) :
    host.Withstands (Begun c w) := by
  have hread : ∀ r, Preserves (Begun c w) (host.core.read r) :=
    fun r v hv => .of_eq (host.core.read_run r · v) (hv.cons _ _)
  exact
    { now := fun v hv => .of_eq (host.core.now_run · v) (hv.cons _ _)
      skip := fun _ _ _ _ hv => hv.cons _ _
      barrier := fun v hv => .of_eq (host.core.barrier_run · v) (hv.cons _ _)
      read := fun r _ => hread r
      write := fun r x _ v hv =>
        .of_eq (host.core.write_run r x · v) (hv.cons _ _)
      drain := fun c room => Host.preserves_drain (fun r _ => hread r) c room }

theorem always_quiesce_begun (c : Channel) (w : World Register σ) :
    (host.quiesce c).Always w (fun _ => Begun c w) (Begun c w) := by
  have h : host.Withstands (Begun c w) := withstands_begun c w
  have hload : (host.core.load (.channel c .characteristics)).Always w
      (fun _ => Begun c w) (Begun c w) :=
    .of_eq (host.core.load_run _ · w) ⟨_, List.suffix_rfl⟩
  refine hload.bind fun chars w' hw => ?_
  refine Preserves.ite (fun _ => ?_) (fun _ => (h.tends c).clear) w' hw
  refine ((h.tends c).halt chars).bind fun _ => ?_
  refine (h.waitUntil _ ?_).bind fun _ => (h.tends c).clear
  exact (h.tends c).inspect (by trivial)

theorem always_transfer_begun (s : Link) (x : Exchange) (buffer : List Byte)
    (length : Nat) (w : World Register σ) :
    (host.transfer s x buffer length).Always w (fun _ => Begun x.channel w)
      (Begun x.channel w) := by
  have h : host.Withstands (Begun x.channel w) := withstands_begun _ w
  rw [host.transfer_eq]
  refine (always_quiesce_begun x.channel w).bind fun _ w' hw => ?_
  refine Preserves.ite (fun _ => ?_) (fun _ => ?_) w' hw
  · exact (h.tends x.channel).awaitFrame.bind fun _ => h.offer _ _ _ _
  · exact h.offer _ _ _ _

/-- A packet of a control transfer goes out if it may be attempted at all. -/
theorem always_controlPacket_begun (hlimit : 0 < host.settings.nakRetryLimit)
    (stage : Stage) (direction : Direction) (pid : Pid) (buffer : List Byte)
    (w : World Register σ) :
    (host.controlPacket s stage direction pid buffer).Always w
      (fun _ => Begun .control w) (Begun .control w) := by
  have h : host.Withstands (Begun .control w) := withstands_begun _ w
  obtain ⟨left, hleft⟩ := Nat.exists_eq_add_one_of_ne_zero
    (Nat.ne_of_gt hlimit)
  have hagain : ∀ buffer, Preserves (Begun .control w) (host.persist stage
      (fun b => host.transfer s (.control direction pid) b b.length) left
      buffer) :=
    (h.bears.carries s).persist (fun b => h.transfer s _ b b.length) left
  unfold Host.controlPacket
  rw [hleft]
  refine (always_transfer_begun s (.control direction pid) buffer
    buffer.length w).bind fun moved w' hw => ?_
  split
  · exact .pure hw
  · refine Preserves.ite (fun _ => ?_) (fun _ => hagain _) w' hw
    exact (h.delay _).bind fun _ => hagain _
  · exact .pure hw

theorem always_control_begun (hlimit : 0 < host.settings.nakRetryLimit)
    (setup : SetupPacket) (buffer : List Byte) (w : World Register σ) :
    (host.control s setup buffer).Always w (fun _ => Begun .control w)
      (Begun .control w) := by
  have h : host.Withstands (Begun .control w) := withstands_begun _ w
  refine (always_controlPacket_begun hlimit .setup .toDevice .setup setup.bytes
    w).bind fun sent w' hw => ?_
  split
  · exact .pure hw
  · refine Preserves.ite (fun _ => ?_) (fun _ => ?_) w' hw
    · refine ((h.bears.carries s).dataStage _ _ _).bind fun moved => ?_
      split
      · exact (h.bears.carries s).statusStage _ _ _
      · exact .pure _
    · exact (h.bears.carries s).statusStage _ _ _

/-- With an endpoint known, the request to report on change only goes out. -/
theorem always_setIdle_begun (hs : s.hid.isSome = true)
    (hlimit : 0 < host.settings.nakRetryLimit) (w : World Register σ) :
    (host.setIdle.run.run s).Always w (fun _ => Begun .control w)
      (Begun .control w) := by
  obtain ⟨hid, hhid⟩ := Option.isSome_iff_exists.1 hs
  have hrequest : ((host.request (.setIdle hid.interface 0) []).run.run
      s).Always w (fun _ => Begun .control w) (Begun .control w) := by
    unfold Host.request
    rw [run_bind, run_get, pure_bind]
    dsimp only
    rw [run_lift_bind]
    refine (always_control_begun hlimit _ _ w).bind fun moved w' hw => ?_
    cases moved.result with
    | ok count => exact .pure hw
    | error e => exact .pure hw
  unfold Host.setIdle
  rw [run_bind, run_get, pure_bind]
  dsimp only
  rw [hhid]
  exact HostM.always_bind hrequest (fun _ _ _ hw => .pure hw) fun _ _ _ hw => hw

/-! ## What is never forgotten -/

/-- Once an endpoint has been found, it stays known. -/
theorem keeps_located (operation : Operation σ) :
    operation.Keeps host fun s => s.hid.isSome = true := by
  have hreset : HostM.Keeps (fun s => s.hid.isSome = true) host.resetBus :=
    keeps_resetBus fun _ _ h => h
  refine keeps_operation (fun _ _ h => h) ?_ (fun _ h => h) operation
  unfold Host.enumerate
  refine .bind (.modify fun _ h => h) fun _ => ?_
  refine .bind (keeps_request _ _) fun head => ?_
  refine .bind (.modify fun _ h => h) fun _ => .bind hreset fun _ => ?_
  refine .bind (.modify fun _ h => h) fun _ => .bind (.lift _) fun _ => ?_
  refine .bind (keeps_request _ _) fun _ => .bind (.modify fun _ h => h) ?_
  refine fun _ => .bind (.lift _) fun _ => .bind (keeps_request _ _) fun _ => ?_
  refine .bind (keeps_request _ _) fun read => .bind (.lift _) ?_
  intro configuration
  cases HidEndpoint.find? configuration with
  | none => exact .throw _
  | some hid =>
    refine .bind (.modify fun _ _ => rfl) fun _ => ?_
    exact .bind (keeps_request _ _) fun _ => .modify fun _ h => h

/-! ## The gates -/

/-- While the device is not enumerated, polling it and selecting an interface
are refused without an access to the hardware.  The request to report on change
only is refused just if no endpoint is known.  Otherwise it goes out to the
device, and this never changes again: what has been found stays known. -/
theorem gates_of_unenumerated (he : s.enumerated = false) (host : Host σ)
    (n : Nat) (w : World Register σ) :
    (∀ report, (host.readReport report).run s n w =
      .ok (⟨.error .notEnumerated, report⟩, s) w) ∧
    (∀ interface setting, (host.setInterface interface setting).run.run s n w =
      .ok (.error .notEnumerated, s) w) ∧
    (host.setIdle.run.run s n w = .ok (.error .notEnumerated, s) w ↔
      s.hid = none) ∧
    (s.hid.isSome = true →
      (∀ s' w', host.setIdle.run.run s n w ≠
        .ok (.error .notEnumerated, s') w') ∧
      (0 < host.settings.nakRetryLimit →
        Begun .control w ((host.setIdle.run.run s).leaves n w)) ∧
      ∀ pad operations replies driver w',
        Driver.performAll host ⟨s, pad⟩ operations n w =
            .ok (replies, driver) w' →
          driver.state.hid.isSome = true) := by
  have hpassed : s.hid.isSome = true → ∀ s' w', host.setIdle.run.run s n w ≠
      .ok (.error .notEnumerated, s') w' :=
    fun hs s' w' hrun => (setIdle_not_refused hs w).of_run hrun rfl
  refine ⟨fun report => ?_, fun interface setting => ?_, ?_, fun hs => ?_⟩
  · have hnone : s.pollable? = none := by
      unfold Link.pollable?
      rw [he]
      exact Option.filter_eq_none_iff.2 fun _ _ => by simp
    rw [Host.run_readReport, hnone]
    rfl
  · unfold Host.setInterface
    rw [run_bind, run_get, pure_bind]
    dsimp only
    rw [he]
    rfl
  · constructor
    · intro hrun
      cases hhid : s.hid with
      | none => rfl
      | some hid =>
        have hs : s.hid.isSome = true := by
          rw [hhid]
          rfl
        exact absurd hrun (hpassed hs s w)
    · intro hhid
      unfold Host.setIdle
      rw [run_bind, run_get, pure_bind]
      dsimp only
      rw [hhid]
      rfl
  · refine ⟨hpassed hs, fun hlimit => ?_, ?_⟩
    · exact (always_setIdle_begun hs hlimit w).leaves n
    · intro pad operations replies driver w' hrun
      exact (performAll_keeps keeps_located operations ⟨s, pad⟩ w
        hs).of_run hrun

/-- A bench on which the driver has brought up a gamepad and reset its port. -/
def resetBench : World Register (Bench.Environment × Bench.TickingClock) :=
  (Driver.performAll benchHost {} [.start PowerSwitch.alwaysOn (.ofMillis 100),
    .resetBus]).leaves 20 ⟨({}, {}), []⟩

/-- The endpoint of the gamepad is still known then, and so the request goes
out, to a device that has no address. -/
theorem reset_gamepad_asked :
    let s : Link := { hid := some ⟨1, 32, 0⟩ }
    s.Reachable ∧ s.enumerated = false ∧ s.address = 0 ∧
      Begun .control resetBench
        ((benchHost.setIdle.run.run s).leaves 20 resetBench) := by
  intro s
  have hrun : (Driver.performAll benchHost {}
      [.start PowerSwitch.alwaysOn (.ofMillis 100), .resetBus]).returns 20
        ⟨({}, {}), []⟩ (fun r _ => decide (r.2.state = s)) = true := by
    decide +kernel
  obtain ⟨⟨replies, driver⟩, w', hrun, hstate⟩ := exists_of_returns hrun
  have hreachable : s.Reachable :=
    ⟨_, benchHost, _, 20, _, w', replies, driver, hrun,
      of_decide_eq_true hstate⟩
  obtain ⟨-, -, -, hknown⟩ :=
    gates_of_unenumerated (s := s) rfl benchHost 20 resetBench
  obtain ⟨-, hbegun, -⟩ := hknown rfl
  exact ⟨hreachable, rfl, rfl, hbegun (by decide)⟩

end UsbHost
