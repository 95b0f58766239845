import UsbHost.Proofs.Driver.Endings
import UsbHost.Proofs.Firmware.PowerGate
import UsbHost.Proofs.Host.Indices

/-!
# Where the driver panics

Nothing that the hardware says makes a check of the driver fail: counts that are
received are clipped to the caller's buffer before anything is sliced at them,
and what goes into a register is cut to its field.  There is one check that the
settings can fail.  The FIFO memory is divided at the sum of two sizes of 16
bits, and where that sum does not fit, bringing up the core panics with two of
the three sizes written.

## Main results

* `faultless_request`, `faultless_enumerate`, `faultless_poll` — operations
  that cannot panic.
* `divideFifos_overflow` — the one check that can fail.
* `configure_panic`, `init_panic` — bringing up the core.
* `takes_approach` — how long it takes to get to that check.
* `panics_iff_fifos_overflow` — when an operation panics, and where.
-/

namespace UsbHost

open Run Bench

variable {σ : Type} {host : Host σ}

/-! ## Operations that cannot panic -/

section Operations

theorem faultless_isConnected : host.isConnected.Faultless fun _ => True :=
  host.core.faultless_inspect _ _

theorem faultless_awaitDevice (timeout : Duration) :
    (host.awaitDevice timeout).Faultless fun _ => True := by
  refine (host.core.faultless_deadlineAfter _).bind fun deadline _ => ?_
  refine .loop (fun _ => True) (fun _ _ => ?_) trivial
  refine faultless_isConnected.bind fun found _ => ?_
  refine .ite (fun _ => .pure trivial) fun _ => ?_
  refine (host.core.faultless_expired deadline).bind fun late _ => ?_
  refine .ite (fun _ => .pure trivial) fun _ => ?_
  refine (host.core.faultless_timeLeft deadline).bind fun left _ => ?_
  exact (host.core.faultless_delay _).bind fun _ _ => .pure trivial

theorem faultless_awaitEnabled : host.awaitEnabled.Faultless fun _ => True := by
  have hrest : ∀ (port : HostPort) deadline, (do
      if HostPort.enabled.get port then
        return .inr (some (.ofCode (HostPort.speed.get port).toNat))
      if ← host.core.expired deadline then
        return .inr none
      host.core.delay host.settings.portPollInterval
      return .inl () : Run Register σ (Unit ⊕ Option Speed)).Faultless
        (Faultless.Round (fun _ => True) fun _ => True) := by
    intro port deadline
    refine .ite (fun _ => .pure trivial) fun _ => ?_
    refine (host.core.faultless_expired deadline).bind fun late _ => ?_
    refine .ite (fun _ => .pure trivial) fun _ => ?_
    exact (host.core.faultless_delay _).bind fun _ _ => .pure trivial
  refine (host.core.faultless_deadlineAfter _).bind fun deadline _ => ?_
  refine .loop (fun _ => True) (fun _ _ => ?_) trivial
  refine (host.core.faultless_load _).bind fun port _ => ?_
  refine .ite (fun _ => ?_) fun _ => hrest _ _
  exact (host.core.faultless_acknowledgePort _).bind fun _ _ => hrest _ _

theorem faultless_resetBus :
    HostM.Faultless host.resetBus fun _ => True := by
  have hupdate := host.core.faultless_updatePort
  have hdelay := host.core.faultless_delay
  refine .bind (.lift faultless_isConnected) fun connected _ => ?_
  cases connected with
  | false => exact .throw _
  | true =>
    refine .bind (.lift (host.core.faultless_acknowledgePort _)) fun _ _ => ?_
    refine .bind (.lift (hdelay _)) fun _ _ => ?_
    refine .bind (.lift (hupdate _)) fun _ _ => ?_
    refine .bind (.lift (hdelay _)) fun _ _ => ?_
    refine .bind (.lift (hupdate _)) fun _ _ => ?_
    refine .bind (.lift (hdelay _)) fun _ _ => ?_
    refine .bind (.lift faultless_awaitEnabled) fun speed _ => ?_
    cases speed with
    | none => exact .throw _
    | some speed => exact .modify _

/-- What a request reports to have moved lies in its buffer. -/
theorem faultless_request (setup : SetupPacket) (buffer : List Byte) :
    HostM.Faultless (host.request setup buffer)
      fun moved => moved.1 ≤ moved.2.length := by
  refine .bind .get fun s _ => ?_
  refine .bind (.lift (Host.faultless_control s setup buffer)) ?_
  intro moved hmoved
  obtain ⟨result, bytes⟩ := moved
  cases result with
  | error e => exact .throw e
  | ok count =>
    have hlength : bytes.length = buffer.length := hmoved.length_eq
    refine .lift (p := pure (count, bytes)) (.pure ?_)
    exact hlength ▸ hmoved.count_le count rfl

theorem faultless_enumerate :
    HostM.Faultless host.enumerate fun _ => True := by
  have hdelay := host.core.faultless_delay
  refine .bind (.modify _) fun _ _ => ?_
  refine .bind (faultless_request _ _) fun head _ => ?_
  refine .bind (.modify _) fun _ _ => .bind faultless_resetBus fun _ _ => ?_
  refine .bind (.modify _) fun _ _ => .bind (.lift (hdelay _)) fun _ _ => ?_
  refine .bind (faultless_request _ _) fun _ _ => ?_
  refine .bind (.modify _) fun _ _ => .bind (.lift (hdelay _)) fun _ _ => ?_
  refine .bind (faultless_request _ _) fun _ _ => ?_
  refine .bind (faultless_request _ _) fun read hread => ?_
  refine .bind (.lift (Faultless.slice (Nat.zero_le _) hread)) ?_
  intro configuration _
  cases HidEndpoint.find? configuration with
  | none => exact .throw _
  | some hid =>
    refine .bind (.modify _) fun _ _ => ?_
    exact .bind (faultless_request _ _) fun _ _ => .modify _

theorem faultless_setIdle : HostM.Faultless host.setIdle fun _ => True := by
  refine .bind .get fun s _ => ?_
  cases s.hid with
  | none => exact .throw _
  | some hid =>
    exact .bind (faultless_request _ _) fun _ _ => .lift (.pure trivial)

theorem faultless_setInterface (interface setting : Byte) :
    HostM.Faultless (host.setInterface interface setting) fun _ => True := by
  refine .bind .get fun s _ => ?_
  split
  · exact .bind (faultless_request _ _) fun _ _ => .lift (.pure trivial)
  · exact .throw _

/-- A report that has been received lies in the buffer for it. -/
theorem faultless_readReport (report : List Byte) (s : Link) :
    ((host.readReport report).run s).Faultless fun r =>
      ∀ count, r.1.result = .ok count → count ≤ r.1.buffer.length := by
  rw [Host.run_readReport]
  cases s.pollable? with
  | none => exact .pure nofun
  | some hid =>
    have hfills : (host.transfer s (Host.pollExchange s hid) report
        (min report.length hid.maxPacketSize.toNat)).Faultless
          fun moved => moved.Fills report := by
      refine ((Host.faultless_transfer s _ report _).and_yields fun w =>
        (yields_transfer host s _ report _ w).mono fun _ _ hleaves => ?_).mono
          fun _ h => h.1
      exact hleaves.fills (Nat.min_le_right _ _) nofun
    refine hfills.bind fun moved hmoved => ?_
    obtain ⟨result, bytes⟩ := moved
    cases result with
    | error cause => exact .pure nofun
    | ok count =>
      have hlength : bytes.length = report.length := hmoved.length_eq
      refine .pure fun count' h => ?_
      cases h
      exact hlength ▸ hmoved.count_le count rfl

theorem faultless_poll (pad : Gamepad) (s : Link) :
    ((pad.poll host).run s).Faultless fun _ => True := by
  rw [Gamepad.run_poll]
  refine (faultless_readReport _ s).bind fun r hr => ?_
  obtain ⟨⟨result, bytes⟩, s'⟩ := r
  cases result with
  | ok count =>
    refine (Faultless.slice (Nat.zero_le _) (hr count rfl)).bind ?_
    exact fun message _ => .pure trivial
  | error e => exact .ite (fun _ => .pure trivial) fun _ => .pure trivial

end Operations

/-! ## The division of the FIFO memory -/

/-- Nothing is written to the register `r`. -/
def Event.Spares (r : Register) (e : Event Register) : Prop :=
  ∀ v, e ≠ .write r v

/-- The start of the periodic transmit FIFO does not fit into its field. -/
def Settings.FifosOverflow (settings : Settings) : Prop :=
  65535 < settings.rxFifoWords.toNat + settings.npTxFifoWords.toNat

namespace Host

/-- What is configured before the FIFO memory is divided. -/
def approach (host : Host σ) : Run Register σ Unit := do
  host.core.store .interruptMask FlagSet.empty
  host.core.store .ahbConfig FlagSet.empty
  host.resetCore
  host.core.store .powerClock 0
  host.core.delay host.settings.clockUngateSettle
  host.forceHostMode

/-- What is configured after that. -/
def complete (host : Host σ) : Run Register σ Unit := do
  host.emptyFifos
  host.core.store .hostConfig (HostConfig.phyClock.set 1 ⟨0⟩)
  host.core.store .frameInterval host.settings.frameInterval
  host.armChannels
  host.core.storeOnes .interruptStatus
  host.core.store .interruptMask polledInterrupts
  host.core.store .ahbConfig AhbConfig.globalInterruptEnable
  host.core.updatePort { power := some true }
  host.core.delay host.settings.portPowerSettle

theorem configure_eq (host : Host σ) : host.configure = (do
    host.approach
    host.divideFifos
    host.complete) := by
  unfold configure approach complete
  simp only [bind_assoc]

end Host

section Configuring

variable {n : Nat} {w w' : World Register σ} {e : Halt}

theorem faultless_resetCore : host.resetCore.Faultless fun _ => True := by
  have hinspect := host.core.faultless_inspect (α := Bool)
  refine (host.core.faultless_waitUntil _ (hinspect _ _)).bind fun _ _ => ?_
  refine (host.core.faultless_store _ _).bind fun _ _ => ?_
  refine (host.core.faultless_waitUntil _ (hinspect _ _)).bind fun _ _ => ?_
  exact host.core.faultless_delay _

theorem faultless_forceHostMode :
    host.forceHostMode.Faultless fun _ => True := by
  refine (host.core.faultless_load _).bind fun config _ => ?_
  refine (host.core.faultless_store _ _).bind fun _ _ => ?_
  refine (host.core.faultless_delay _).bind fun _ _ => ?_
  refine (host.core.faultless_waitUntil _ ?_).bind fun _ _ => .pure trivial
  exact host.core.faultless_inspect _ _

theorem faultless_approach : host.approach.Faultless fun _ => True := by
  refine (host.core.faultless_store _ _).bind fun _ _ => ?_
  refine (host.core.faultless_store _ _).bind fun _ _ => ?_
  refine faultless_resetCore.bind fun _ _ => ?_
  refine (host.core.faultless_store _ _).bind fun _ _ => ?_
  refine (host.core.faultless_delay _).bind fun _ _ => ?_
  exact faultless_forceHostMode

theorem faultless_emptyFifos : host.emptyFifos.Faultless fun _ => True := by
  have hinspect := host.core.faultless_inspect (α := Bool)
  refine (host.core.faultless_store _ _).bind fun _ _ => ?_
  refine (host.core.faultless_waitUntil _ (hinspect _ _)).bind fun _ _ => ?_
  refine (host.core.faultless_store _ _).bind fun _ _ => ?_
  refine (host.core.faultless_waitUntil _ (hinspect _ _)).bind fun _ _ => ?_
  exact .pure trivial

theorem faultless_complete : host.complete.Faultless fun _ => True := by
  have hstore := host.core.faultless_store
  have harm : host.armChannels.Faultless fun _ => True := by
    refine (Faultless.forM fun c => ?_).bind fun _ _ => hstore _ _
    exact (Host.faultless_quiesce c).bind fun _ _ => hstore _ _
  refine faultless_emptyFifos.bind fun _ _ => ?_
  refine (hstore _ _).bind fun _ _ => (hstore _ _).bind fun _ _ => ?_
  refine harm.bind fun _ _ => ?_
  refine (host.core.faultless_storeOnes _).bind fun _ _ => ?_
  refine (hstore _ _).bind fun _ _ => (hstore _ _).bind fun _ _ => ?_
  refine (host.core.faultless_updatePort _).bind fun _ _ => ?_
  exact host.core.faultless_delay _

theorem fifosOverflow_iff (settings : Settings) :
    settings.FifosOverflow ↔
      ¬ (settings.rxFifoWords + settings.npTxFifoWords).toNat =
        settings.rxFifoWords.toNat + settings.npTxFifoWords.toNat := by
  have hrx := settings.rxFifoWords.isLt
  have htx := settings.npTxFifoWords.isLt
  rw [Settings.FifosOverflow, BitVec.toNat_add]
  omega

/-- The sizes of the first two FIFOs, as they are written. -/
def Host.sizesWritten (host : Host σ) : List (Event Register) :=
  [.write .npTxFifoSize (Packed.raw (FifoSize.of host.settings.rxFifoWords
      host.settings.npTxFifoWords)),
    .write .rxFifoSize (host.settings.rxFifoWords.setWidth 32)]

/-- Two sizes are written before the sum is checked. -/
theorem divideFifos_eq (host : Host σ) (n : Nat) (w : World Register σ) :
    ∃ v, v.log = host.sizesWritten ++ w.log ∧
      host.divideFifos n w = (do
        let start ← Run.add host.settings.rxFifoWords
          host.settings.npTxFifoWords
        host.core.store .periodicTxFifoSize
          (.of start host.settings.periodicTxFifoWords)) n v :=
  ⟨_, rfl, rfl⟩

/-- If the sum does not fit, dividing the FIFO memory stops with just the first
two sizes written. -/
theorem divideFifos_overflow (h : host.settings.FifosOverflow) (n : Nat)
    (w : World Register σ) :
    ∃ w', host.divideFifos n w = .error .addOverflow w' ∧
      w'.log = host.sizesWritten ++ w.log := by
  obtain ⟨v, hlog, hrun⟩ := divideFifos_eq host n w
  have hadd : (Run.add host.settings.rxFifoWords host.settings.npTxFifoWords :
      Run Register σ Half) = throw .addOverflow :=
    if_neg ((fifosOverflow_iff _).1 h)
  refine ⟨v, ?_, hlog⟩
  rw [hrun, hadd]
  rfl

/-- If the sum fits, dividing the FIFO memory cannot panic. -/
theorem faultless_divideFifos (h : ¬ host.settings.FifosOverflow) :
    host.divideFifos.Faultless fun _ => True := by
  refine (host.core.faultless_store _ _).bind fun _ _ => ?_
  refine (host.core.faultless_store _ _).bind fun _ _ => ?_
  rw [add_eq (Decidable.not_not.1 (mt (fifosOverflow_iff _).2 h)), pure_bind]
  exact host.core.faultless_store _ _

/-- If the sum does not fit, a configuration that gets to it panics there. -/
theorem configure_overflow (h : host.settings.FifosOverflow)
    (hrun : host.approach n w = .ok () w') :
    ∃ v, host.configure n w = .error .addOverflow v ∧
      v.log = host.sizesWritten ++ w'.log := by
  obtain ⟨v, hdivide, hlog⟩ := divideFifos_overflow h n w'
  rw [host.configure_eq]
  refine ⟨v, bind_eq_error.2 (.inr ⟨_, _, hrun, ?_⟩), hlog⟩
  exact bind_eq_error.2 (.inl hdivide)

/-- There is no other way for a configuration to panic. -/
theorem configure_panic (h : host.configure n w = .error e w')
    (he : e ≠ .unfinished) :
    host.settings.FifosOverflow ∧ e = .addOverflow ∧
      ∃ v, host.approach n w = .ok () v ∧
        w'.log = host.sizesWritten ++ v.log := by
  rw [host.configure_eq] at h
  obtain ⟨_, v, happroach, hrest⟩ := faultless_approach.panic_after h he
  have hdivide := panic_before (fun _ => faultless_complete) hrest he
  by_cases hoverflow : host.settings.FifosOverflow
  · obtain ⟨v', hstop, hlog⟩ := divideFifos_overflow hoverflow n v
    rw [hstop] at hdivide
    cases hdivide
    exact ⟨hoverflow, rfl, v, happroach, hlog⟩
  · exact absurd ((faultless_divideFifos hoverflow).stops n v e w' hdivide) he

/-- If the sum does not fit, a configuration does not return. -/
theorem configure_ne_ok (h : host.settings.FifosOverflow) (a : Unit) :
    host.configure n w ≠ .ok a w' := by
  intro hrun
  rw [host.configure_eq] at hrun
  obtain ⟨_, v, -, hrest⟩ := bind_eq_ok.1 hrun
  obtain ⟨_, v', hdivide, -⟩ := bind_eq_ok.1 hrest
  obtain ⟨u, hstop, -⟩ := divideFifos_overflow h n v
  rw [hstop] at hdivide
  exact nomatch hdivide

/-- On the way to the check the size of the periodic transmit FIFO is not
written. -/
theorem approach_since (h : host.approach n w = .ok () w') :
    w'.Since w.log [] (Event.Spares .periodicTxFifoSize) := by
  let P : World Register σ → Prop :=
    World.Since w.log [] (Event.Spares .periodicTxFifoSize)
  have hload : ∀ r, Preserves P (host.core.load r) := fun r v hv =>
    .of_eq (host.core.load_run r · v) (hv.cons (by rintro _ ⟨⟩) _)
  have hstore : ∀ (r : Register) content, r ≠ .periodicTxFifoSize →
      Preserves P (host.core.store r content) := by
    intro r content hr v hv
    refine .of_eq (host.core.store_run r content · v) (hv.cons ?_ _)
    intro value hevent
    cases hevent
    exact hr rfl
  have htime : host.core.Timeless P :=
    { now := fun v hv =>
        .of_eq (host.core.now_run · v) (hv.cons (by rintro _ ⟨⟩) _)
      skip := fun _ _ _ _ hv => hv.cons (by rintro _ ⟨⟩) _ }
  have hinspect : ∀ (r : Register) (f : r.Content → Bool),
      Preserves P (do return f (← host.core.load r)) :=
    fun r f => (hload r).bind fun _ => .pure _
  have hreset : Preserves P host.resetCore := by
    refine (htime.waitUntil _ (hinspect _ _)).bind fun _ => ?_
    refine (hstore _ _ (by nofun)).bind fun _ => ?_
    refine (htime.waitUntil _ (hinspect _ _)).bind fun _ => ?_
    exact htime.delay _
  have hforce : Preserves P host.forceHostMode := by
    refine (hload _).bind fun config => ?_
    refine (hstore _ _ (by nofun)).bind fun _ => ?_
    refine (htime.delay _).bind fun _ => ?_
    exact (htime.waitUntil _ (hinspect _ _)).bind fun _ => .pure _
  have happroach : Preserves P host.approach := by
    refine (hstore _ _ (by nofun)).bind fun _ => ?_
    refine (hstore _ _ (by nofun)).bind fun _ => ?_
    refine hreset.bind fun _ => ?_
    refine (hstore _ _ (by nofun)).bind fun _ => ?_
    exact (htime.delay _).bind fun _ => hforce
  exact (happroach w (.refl w _)).ok n () w' h

end Configuring

/-! ## Bringing up the core -/

/-- The observer sees power granted, in the world `granted`, and the identity of
the core confirmed, in the world `v`. -/
def Host.Identifies (host : Host σ) (power : PowerSwitch σ) (n : Nat)
    (w granted v : World Register σ) : Prop :=
  power n w = .ok (.ok ()) granted ∧
    ∃ u id, host.core.delay host.settings.powerSettle n granted = .ok () u ∧
      host.core.load .coreId n u = .ok id v ∧ isDwc2Id id = true

section Bringup

variable {power : PowerSwitch σ} {s : Link} {n : Nat}
  {w w' granted v : World Register σ} {e : Halt}

/-- Until the core has been identified nothing is written. -/
theorem identifies_since {r : Register}
    (h : host.Identifies power n w granted v) :
    v.Since granted.log [] (Event.Spares r) := by
  obtain ⟨-, u, id, hdelay, hload, -⟩ := h
  have hsettle := delay_since host host.settings.powerSettle n granted
  rw [leaves_of_ok hdelay] at hsettle
  have hspares : ∀ e : Event Register, e.IsTime → e.Spares r := by
    rintro e he v rfl
    exact he
  cases hload
  exact (hsettle.mono hspares).cons (by rintro _ ⟨⟩) _

/-- Once the core has been identified, bringing it up is to configure it. -/
theorem init_of_identifies (h : host.Identifies power n w granted v) :
    (host.init power).run.run s n w =
      (host.configure >>= fun _ => pure (.ok (), s)) n v := by
  obtain ⟨hpower, u, id, hdelay, hload, hid⟩ := h
  rw [run_init, bind_of_ok hpower]
  dsimp only
  rw [bind_of_ok hdelay, bind_of_ok hload, if_pos hid]

/-- Bringing up the core panics where its power switch does, or where it is
configured. -/
theorem init_panic (h : (host.init power).run.run s n w = .error e w')
    (he : e ≠ .unfinished) :
    Run.Panics power n w ∨ ∃ granted v,
      host.Identifies power n w granted v ∧
        host.configure n v = .error e w' := by
  rw [run_init] at h
  obtain hstop | ⟨answer, granted, hpower, hrest⟩ := bind_eq_error.1 h
  · exact .inl ⟨e, w', hstop, he⟩
  · cases answer with
    | error _ => exact nomatch hrest
    | ok _ =>
      obtain ⟨_, u, hdelay, hrest⟩ :=
        (host.core.faultless_delay _).panic_after hrest he
      obtain ⟨id, v, hload, hrest⟩ :=
        (host.core.faultless_load _).panic_after hrest he
      by_cases hid : isDwc2Id id = true
      · rw [if_pos hid] at hrest
        have hconfigure := panic_before (R := fun _ => True)
          (fun _ => .pure trivial) hrest he
        exact .inr ⟨granted, v, ⟨hpower, u, id, hdelay, hload, hid⟩,
          hconfigure⟩
      · rw [if_neg hid] at hrest
        exact nomatch hrest

end Bringup

/-! ## Operations that bring up the core -/

/-- The power switch that an operation is given. -/
def Operation.power? : Operation σ → Option (PowerSwitch σ)
  | .init power | .start power _ => some power
  | _ => none

/-- An operation without a power switch cannot panic. -/
theorem faultless_perform {operation : Operation σ}
    (h : operation.power? = none) (driver : Driver) :
    (operation.perform host driver).Faultless fun _ => True := by
  have hdevice : ∀ {p : HostM σ Unit}, HostM.Faultless p (fun _ => True) →
      (Operation.onDevice driver p).Faultless fun _ => True :=
    fun hp => (hp driver.state).bind fun _ _ => .pure trivial
  cases operation with
  | version => exact (host.core.faultless_load _).bind fun _ _ => .pure trivial
  | isConnected => exact faultless_isConnected.bind fun _ _ => .pure trivial
  | awaitDevice timeout =>
    exact (faultless_awaitDevice timeout).bind fun _ _ => .pure trivial
  | resetBus => exact hdevice faultless_resetBus
  | enumerate => exact hdevice faultless_enumerate
  | setIdle => exact hdevice faultless_setIdle
  | setInterface interface setting =>
    exact hdevice (faultless_setInterface interface setting)
  | control setup buffer =>
    exact (Host.faultless_control _ setup buffer).bind fun _ _ => .pure trivial
  | transfer x buffer length =>
    exact (Host.faultless_transfer _ x buffer length).bind
      fun _ _ => .pure trivial
  | readReport report =>
    exact (faultless_readReport report _).bind fun _ _ => .pure trivial
  | poll => exact (faultless_poll driver.pad _).bind fun _ _ => .pure trivial
  | init power => exact nomatch h
  | start power timeout => exact nomatch h

/-- An operation with a power switch brings up the core, and cannot panic
afterwards. -/
theorem perform_eq_init (host : Host σ) {operation : Operation σ}
    {power : PowerSwitch σ} (h : operation.power? = some power)
    (driver : Driver) :
    ∃ f : Except UsbError Unit × Link → Run Register σ (Reply × Driver),
      (∀ r, (f r).Faultless fun _ => True) ∧
      operation.perform host driver =
        (host.init power).run.run driver.state >>= f := by
  cases operation with
  | init power =>
    cases h
    exact ⟨_, fun _ => .pure trivial, rfl⟩
  | start power timeout =>
    cases h
    have hrest : HostM.Faultless (σ := σ) (do
        if !(← host.awaitDevice timeout) then
          throw .noDevice
        host.resetBus
        host.enumerate
        tryCatch host.setIdle fun _ => pure ()) fun _ => True := by
      refine .bind (.lift (faultless_awaitDevice timeout)) fun found _ => ?_
      cases found with
      | false => exact .throw _
      | true =>
        refine .bind faultless_resetBus fun _ _ => ?_
        refine .bind faultless_enumerate fun _ _ => ?_
        exact .tryCatch faultless_setIdle fun _ => .lift (.pure trivial)
    have hrun : Operation.perform host driver (.start power timeout) =
        (host.start power timeout).run.run driver.state >>= fun r =>
          pure (.finished r.1, { driver with state := r.2 }) := rfl
    rw [hrun, Host.start, HostM.run_bind, bind_assoc]
    refine ⟨_, fun r => ?_, rfl⟩
    obtain ⟨r, s'⟩ := r
    cases r with
    | ok _ => exact (hrest s').bind fun _ _ => .pure trivial
    | error e => exact .pure trivial
  | _ => exact nomatch h

section Powered

variable {operation : Operation σ} {power : PowerSwitch σ} {driver : Driver}
  {n : Nat} {w w' granted v : World Register σ} {e : Halt}

/-- An operation that brings up the core panics where its power switch does, or
where the FIFO memory is divided. -/
theorem perform_panic (h : operation.power? = some power)
    (hrun : operation.perform host driver n w = .error e w')
    (he : e ≠ .unfinished) :
    Run.Panics power n w ∨ host.settings.FifosOverflow ∧ e = .addOverflow ∧
      ∃ granted u v, host.Identifies power n w granted u ∧
        host.approach n u = .ok () v ∧
          w'.log = host.sizesWritten ++ v.log := by
  obtain ⟨f, hf, heq⟩ := perform_eq_init host h driver
  rw [heq] at hrun
  obtain hpower | ⟨granted, u, hid, hconfigure⟩ :=
    init_panic (panic_before hf hrun he) he
  · exact .inl hpower
  · obtain ⟨hoverflow, he', v, happroach, hlog⟩ :=
      configure_panic hconfigure he
    exact .inr ⟨hoverflow, he', granted, u, v, hid, happroach, hlog⟩

/-- It stops where its power switch does. -/
theorem perform_of_power (h : operation.power? = some power)
    (hpower : power n w = .error e w') :
    operation.perform host driver n w = .error e w' := by
  obtain ⟨f, -, heq⟩ := perform_eq_init host h driver
  rw [heq, run_init]
  exact bind_eq_error.2 (.inl (bind_eq_error.2 (.inl hpower)))

/-- It stops where the core is configured. -/
theorem perform_of_configure (h : operation.power? = some power)
    (hid : host.Identifies power n w granted v)
    (hconfigure : host.configure n v = .error e w') :
    operation.perform host driver n w = .error e w' := by
  obtain ⟨f, -, heq⟩ := perform_eq_init host h driver
  rw [heq]
  refine bind_eq_error.2 (.inl ?_)
  rw [init_of_identifies hid]
  exact bind_eq_error.2 (.inl hconfigure)

/-- With sizes that do not fit it does not return once the core has been
identified. -/
theorem perform_ne_ok (h : operation.power? = some power)
    (hoverflow : host.settings.FifosOverflow)
    (hid : host.Identifies power n w granted v) (r : Reply × Driver) :
    operation.perform host driver n w ≠ .ok r w' := by
  intro hrun
  obtain ⟨f, -, heq⟩ := perform_eq_init host h driver
  rw [heq] at hrun
  obtain ⟨_, _, hinit, -⟩ := bind_eq_ok.1 hrun
  rw [init_of_identifies hid] at hinit
  obtain ⟨u, _, hconfigure, -⟩ := bind_eq_ok.1 hinit
  exact configure_ne_ok hoverflow u hconfigure

end Powered

/-! ## On a ticking clock -/

/-- The waits on the way to the division of the FIFO memory are brief. -/
structure Settings.Brief (settings : Settings) : Prop where
  powerSettle : settings.powerSettle.nanos ≤ 800000000
  ahbIdleTimeout : settings.ahbIdleTimeout.nanos ≤ 800000000
  coreResetTimeout : settings.coreResetTimeout.nanos ≤ 800000000
  coreResetSettle : settings.coreResetSettle.nanos ≤ 800000000
  clockUngateSettle : settings.clockUngateSettle.nanos ≤ 800000000
  forceHostSettle : settings.forceHostSettle.nanos ≤ 800000000
  hostModeTimeout : settings.hostModeTimeout.nanos ≤ 800000000

section Ticking

variable {τ : Type} (bus : Bus Register τ) (spin : Bool) {settings : Settings}

/-- On a ticking clock every configuration gets to the division. -/
theorem takes_approach {E : Event Register → Prop} (hs : settings.Brief) :
    Takes E 6 ({ core := tickingMachine bus spin, settings } :
      Host (τ × TickingClock)).approach fun _ => True := by
  have hinspect : ∀ (r : Register) (f : r.Content → Bool), Untimed (do
      return f (← Core.load (tickingMachine bus spin) r)) :=
    untimed_inspect bus spin
  have hstore := untimed_store bus spin
  have hreset : Takes E 3 ({ core := tickingMachine bus spin, settings } :
      Host (τ × TickingClock)).resetCore fun _ => True := by
    refine .bind (l := 2) (.waitUntil bus spin hs.ahbIdleTimeout
      (hinspect _ _)) fun _ _ => .after (hstore _ _) fun _ => ?_
    refine .bind (l := 1) (.waitUntil bus spin hs.coreResetTimeout
      (hinspect _ _)) fun _ _ => ?_
    exact .delay bus spin hs.coreResetSettle
  have hforce : Takes E 2 ({ core := tickingMachine bus spin, settings } :
      Host (τ × TickingClock)).forceHostMode fun _ => True := by
    refine .after (untimed_load bus spin _) fun config => ?_
    refine .after (hstore _ _) fun _ => ?_
    refine .bind (l := 1) (.delay bus spin hs.forceHostSettle) fun _ _ => ?_
    refine .bind (l := 0) (.waitUntil bus spin hs.hostModeTimeout
      (hinspect _ _)) fun _ _ => .pure trivial
  refine .after (hstore _ _) fun _ => .after (hstore _ _) fun _ => ?_
  refine .bind (l := 3) hreset fun _ _ => .after (hstore _ _) fun _ => ?_
  exact .bind (l := 2) (.delay bus spin hs.clockUngateSettle) fun _ _ => hforce

/-- A delay does not touch the bus. -/
theorem ticking_delay_bus {d : Duration} {n : Nat}
    {w w' : World Register (τ × TickingClock)}
    (h : (tickingMachine bus spin).delay d n w = .ok () w') :
    w'.env.1 = w.env.1 := by
  have htime : (tickingMachine bus spin).Timeless fun v =>
      v.env.1 = w.env.1 :=
    { now := fun v hv =>
        .of_eq ((tickingMachine bus spin).now_run · v) hv
      skip := by
        intro f d v hf hv
        cases spin with
        | true => exact nomatch hf
        | false =>
          cases hf
          exact hv }
  exact (htime.delay d w rfl).ok n () w' h

/-- On a ticking clock, sizes that do not fit are found out: once power is
granted to a core with the right identity, the operation panics. -/
theorem ticking_panics {operation : Operation (τ × TickingClock)}
    {power : PowerSwitch (τ × TickingClock)} {driver : Driver} {n : Nat}
    {w granted : World Register (τ × TickingClock)} (hs : settings.Brief)
    (hoverflow : settings.FifosOverflow)
    (hop : operation.power? = some power)
    (hpower : ∀ k, n ≤ k → power k w = .ok (.ok ()) granted)
    (hspare : Spare 7 granted.env.2)
    (hid : isDwc2Id (bus.read .coreId granted.env.1).1 = true) :
    ∃ enough, ∀ k, enough ≤ k → (operation.perform
      { core := tickingMachine bus spin, settings } driver).Panics k w := by
  have hsettle := Takes.delay (E := fun _ => False) bus spin hs.powerSettle 6
    granted hspare
  obtain ⟨_, u, enough, hdelay, -, hu⟩ := hsettle.exists_run
  have hbus := ticking_delay_bus bus spin (hdelay enough (Nat.le_refl enough))
  obtain ⟨v, hload, hv⟩ : ∃ v : World Register (τ × TickingClock),
      (∀ k, Core.load (tickingMachine bus spin) .coreId k u =
        .ok (bus.read .coreId granted.env.1).1 v) ∧ v.env.2 = u.env.2 := by
    rw [← hbus]
    exact ⟨_, fun _ => rfl, rfl⟩
  have happroach := takes_approach (E := fun _ => False) bus spin hs 0 v
    (by rw [hv]; exact hu)
  obtain ⟨_, v', enough', hrun, -, -⟩ := happroach.exists_run
  refine ⟨max n (max enough enough'), fun k hk => ?_⟩
  have hidentifies : ({ core := tickingMachine bus spin, settings } :
      Host (τ × TickingClock)).Identifies power k w granted v :=
    ⟨hpower k (by omega), u, _, hdelay k (by omega), hload k, hid⟩
  obtain ⟨stop, hstop, -⟩ := configure_overflow hoverflow (hrun k (by omega))
  exact ⟨.addOverflow, stop, perform_of_configure hop hidentifies hstop,
    nofun⟩

end Ticking

/-! ## All operations -/

/-- No operation panics but for one: whatever the bus and the clock do,
whatever the settings, the driver's state and the arguments are, bringing up the
core, and with it a start, panics just if power is granted, the identity of the
core is confirmed and the sizes of the first two FIFOs do not sum up to 16 bits;
unless its power switch panics, or a wait before that does not end.  It then
stops with the sum, and of the three sizes the first two have been written.  A
ticking clock ends these waits, so there it does panic.

The indices of the programs that run are implicit in the lists they work on.
With each index, each slice, each difference and each field made explicit and
checked, exchanges, control transfers and the walk over a configuration are the
same programs, so that no such check fails either. -/
theorem panics_iff_fifos_overflow (host : Host σ) (driver : Driver) (n : Nat)
    (w : World Register σ) :
    (∀ operation : Operation σ, operation.power? = none →
      ¬ (operation.perform host driver).Panics n w) ∧
    (∀ (operation : Operation σ) power, operation.power? = some power →
      (¬ (operation.perform host driver).Unfinished n w →
        ((operation.perform host driver).Panics n w ↔
          Run.Panics power n w ∨
            (∃ granted v, host.Identifies power n w granted v) ∧
              65535 < host.settings.rxFifoWords.toNat +
                host.settings.npTxFifoWords.toNat)) ∧
      ∀ e w', operation.perform host driver n w = .error e w' →
        e ≠ .unfinished → ¬ Run.Panics power n w →
        e = .addOverflow ∧ ∃ granted u, ∃ v : World Register σ,
          host.Identifies power n w granted u ∧
          v.Since granted.log [] (Event.Spares .periodicTxFifoSize) ∧
          w'.log = host.sizesWritten ++ v.log) ∧
    (∀ (τ : Type) (bus : Bus Register τ) (spin : Bool) (settings : Settings)
      (operation : Operation (τ × TickingClock)) power driver k w granted,
      settings.Brief → operation.power? = some power →
      (∀ m, k ≤ m → power m w = .ok (.ok ()) granted) →
      Spare 7 granted.env.2 →
      isDwc2Id (bus.read .coreId granted.env.1).1 = true →
      65535 < settings.rxFifoWords.toNat + settings.npTxFifoWords.toNat →
      ∃ enough, ∀ m, enough ≤ m → (operation.perform
        { core := tickingMachine bus spin, settings } driver).Panics m w) ∧
    (∀ bits s x buffer length, Addressable bits buffer.length →
      host.checkedTransfer bits s x buffer length =
        host.transfer s x buffer length) ∧
    (∀ bits s setup buffer, Addressable bits buffer.length →
      host.checkedControl bits s setup buffer = host.control s setup buffer) ∧
    ∀ bytes, (checkedRecord bytes : Run Register σ _) =
      pure (nextRecord? bytes) := by
  refine ⟨?_, ?_, ?_, ?_, ?_, checkedRecord_eq⟩
  · exact fun operation h => (faultless_perform h driver).not_panics n w
  · intro operation power h
    constructor
    · intro hends
      constructor
      · intro ⟨e, w', hrun, he⟩
        obtain hpower | ⟨hoverflow, -, granted, u, -, hid, -, -⟩ :=
          perform_panic h hrun he
        · exact .inl hpower
        · exact .inr ⟨⟨granted, u, hid⟩, hoverflow⟩
      · rintro (⟨e, w', hpower, he⟩ | ⟨⟨granted, v, hid⟩, hoverflow⟩)
        · exact ⟨e, w', perform_of_power h hpower, he⟩
        · cases hrun : operation.perform host driver n w with
          | ok r w' => exact absurd hrun (perform_ne_ok h hoverflow hid r)
          | error e w' =>
            refine ⟨e, w', hrun, fun he => hends ⟨w', ?_⟩⟩
            rw [hrun, he]
    · intro e w' hrun he hpower
      obtain ⟨-, he', granted, u, v, hid, happroach, hlog⟩ :=
        (perform_panic h hrun he).resolve_left hpower
      exact ⟨he', granted, u, v, hid,
        (identifies_since hid).trans (approach_since happroach), hlog⟩
  · intro τ bus spin settings operation power driver k w granted hs hop hpower
      hspare hid hoverflow
    exact ticking_panics bus spin hs hoverflow hop hpower hspare hid
  · exact fun bits s x buffer length h => Host.checkedTransfer_eq h length
  · exact fun bits s setup buffer h => Host.checkedControl_eq h setup

/-- A core that tells its identity and nothing else. -/
def silentCore : Bus Register Unit where
  read r b := (if r = .coreId then 0x4F54280A else 0, b)
  write _ _ b := b

/-- There, with sizes that sum up to 65536, bringing up the core panics with the
first two sizes written; and a poll for a report stores it in place. -/
theorem oversized_fifos_panic :
    let settings : Settings := { rxFifoWords := 65535, npTxFifoWords := 1 }
    let host : Host (Unit × TickingClock) :=
      { core := tickingMachine silentCore false, settings }
    let w : World Register (Unit × TickingClock) := ⟨((), {}), []⟩
    let init : Operation (Unit × TickingClock) := .init PowerSwitch.alwaysOn
    (∃ enough, ∀ m, enough ≤ m → ∃ w' earlier,
      init.perform host {} m w = .error .addOverflow w' ∧
        w'.log = host.sizesWritten ++ earlier) ∧
    ∀ s x length, host.checkedTransfer 64 s x (List.replicate 20 0) length =
      host.transfer s x (List.replicate 20 0) length := by
  intro settings host w init
  have hsettings : settings.Brief := by
    constructor <;> decide
  have hon : ∀ m, ¬ Run.Panics
      (PowerSwitch.alwaysOn (σ := Unit × TickingClock)) m w := fun m =>
    (Faultless.pure (R := fun _ => True) trivial).not_panics m w
  have hpanics := (panics_iff_fifos_overflow host {} 0 w).2.2.1 Unit silentCore
    false settings init PowerSwitch.alwaysOn {} 0 w w hsettings rfl
    (fun _ _ => rfl) ⟨by decide, by decide⟩ (by decide) (by decide)
  constructor
  · obtain ⟨enough, hpanics⟩ := hpanics
    refine ⟨enough, fun m hm => ?_⟩
    obtain ⟨e, w', hrun, he⟩ := hpanics m hm
    obtain ⟨rfl, -, -, v, -, -, hlog⟩ :=
      ((panics_iff_fifos_overflow host {} m w).2.1 init _ rfl).2 e w' hrun he
        (hon m)
    exact ⟨w', v.log, hrun, hlog⟩
  · intro s x length
    exact (panics_iff_fifos_overflow host {} 0 w).2.2.2.1 64 s x _ length
      ⟨by decide, by decide⟩

end UsbHost
