import UsbHost.Driver.Operation
import UsbHost.Firmware.Power
import UsbHost.Bench.Firmware
import UsbHost.Proofs.Driver.Programming

/-!
# The power gate

The registers of the USB block must not be touched while it has no power, and a
foreign block must not be written to.  So bringing up the core passes two gates:
the firmware has to confirm that the block has power, in an answer of eight
words of which three matter, and the identity register has to be that of the
core.  Whatever the firmware answers and whatever the hardware does, nothing
happens behind a gate that is shut.

## Main results

* `switchOnUsb_eq`, `switchPower_eq` — the one call that is made, and what is
  made of its answer.
* `PropertyMessage.reportedPower_eq_ok_iff` — the three words that matter.
* `isDwc2Id_iff` — the upper bits of the identity register.
* `failsToStart_refused`, `failsToStart_foreign` — the two gates.
* `usb_untouched_without_power` — all of this together.
-/

namespace UsbHost

open Run

/-! ## What the firmware answers -/

/-- The message that asks the firmware for power: eight words. -/
def usbPowerRequest : PropertyMessage := ⟨#v[32, 0, 0x28001, 8, 8, 3, 3, 0]⟩

/-- Whether an answer confirms that a device has power: the whole message was a
success, its tag has been answered, and the device is on. -/
def confirmsPower : Except MailboxError PropertyMessage → Bool
  | .ok reply =>
    decide (reply.responseCode = PropertyMessage.success) &&
      reply.hasTagReply && reply.powered
  | .error _ => false

namespace PropertyMessage

variable {reply : PropertyMessage}

theorem reportedPower_of_refused (h : reply.responseCode ≠ success) :
    reply.reportedPower = .error (.rejected reply.responseCode) :=
  if_pos h

theorem reportedPower_of_unanswered (h : reply.responseCode = success)
    (htag : reply.hasTagReply = false) :
    reply.reportedPower = .error (.rejected reply.tagSize) := by
  have hsuccess : ¬ reply.responseCode ≠ success := not_not_intro h
  have hunanswered : ¬ reply.hasTagReply = true :=
    fun hanswered => Bool.false_ne_true (htag.symm.trans hanswered)
  rw [reportedPower, if_neg hsuccess, if_neg hunanswered]

theorem reportedPower_of_answered (h : reply.responseCode = success)
    (htag : reply.hasTagReply = true) :
    reply.reportedPower = .ok reply.powered := by
  have hsuccess : ¬ reply.responseCode ≠ success := not_not_intro h
  rw [reportedPower, if_neg hsuccess, if_pos htag]

/-- The state that a reply reports is on just if it confirms that. -/
theorem reportedPower_eq_ok_iff :
    reply.reportedPower = .ok true ↔ confirmsPower (.ok reply) = true := by
  by_cases h : reply.responseCode = success
  · cases htag : reply.hasTagReply with
    | false =>
      have hno : confirmsPower (.ok reply) = false := by
        unfold confirmsPower
        dsimp only
        rw [htag, Bool.and_false, Bool.false_and]
      rw [reportedPower_of_unanswered h htag, hno]
      exact ⟨nofun, nofun⟩
    | true =>
      have hlast : confirmsPower (.ok reply) = reply.powered := by
        unfold confirmsPower
        dsimp only
        rw [decide_eq_true h, htag, Bool.true_and, Bool.true_and]
      rw [reportedPower_of_answered h htag, hlast]
      exact ⟨Except.ok.inj, congrArg Except.ok⟩
  · have hno : confirmsPower (.ok reply) = false := by
      unfold confirmsPower
      dsimp only
      rw [decide_eq_false h, Bool.false_and, Bool.false_and]
    rw [reportedPower_of_refused h, hno]
    exact ⟨nofun, nofun⟩

end PropertyMessage

/-! ## The one call -/

section Call

variable {M : Type → Type} [Monad M] (mailbox : Mailbox M)

/-- A device is switched by one call, whose failure is passed on. -/
theorem switchPower_eq (device : Word) (on : Bool) :
    switchPower mailbox device on = (do
      let answer ← mailbox 8 (.switchPower device on)
      pure (answer.bind PropertyMessage.reportedPower)) := by
  unfold switchPower
  congr 1
  funext answer
  cases answer <;> rfl

/-- The USB block is switched on by one call, and counts as switched on just if
the answer confirms it. -/
theorem switchOnUsb_eq [LawfulMonad M] :
    switchOnUsb mailbox = (do
      let answer ← mailbox 8 usbPowerRequest
      pure (if confirmsPower answer then .ok ()
        else .error .powerOnFailed)) := by
  unfold switchOnUsb
  rw [switchPower_eq, bind_assoc]
  congr 1
  funext answer
  rw [pure_bind]
  cases answer with
  | error e => rfl
  | ok reply =>
    have hiff : reply.reportedPower = .ok true ↔ _ :=
      PropertyMessage.reportedPower_eq_ok_iff
    by_cases h : confirmsPower (.ok reply) = true
    · rw [if_pos h, Except.bind, hiff.2 h]
    · rw [if_neg h]
      split
      next hreported => exact absurd (hiff.1 hreported) h
      next => rfl

end Call

/-! ## The identity of the core -/

/-- The identity register is that of the core, of any release, just if its upper
twenty bits say so. -/
theorem isDwc2Id_iff (id : Word) : isDwc2Id id = true ↔ id >>> 12 = 0x4F542 := by
  have hmask : id &&& (0xFFFFF000 : Word) = (id >>> 12) <<< 12 := by
    have hones : (0xFFFFF000 : Word) = BitVec.allOnes 32 <<< 12 := by decide
    rw [hones]
    exact BitVec.shiftLeft_ushiftRight.symm
  unfold isDwc2Id
  rw [decide_eq_true_iff, hmask]
  constructor
  · intro h
    bv_omega
  · intro h
    rw [h]
    rfl

/-! ## The two gates -/

/-- Time has passed, and nothing else has happened. -/
def Event.IsTime : Event Register → Prop
  | .clock _ | .pause _ => True
  | _ => False

section Gates

variable {σ : Type} {power : PowerSwitch σ} {s : Link} {n : Nat}
  {w v : World Register σ}

/-- A delay lets time pass, wherever it ends. -/
theorem delay_since (host : Host σ) (d : Duration) (n : Nat)
    (v : World Register σ) :
    World.Since v.log [] Event.IsTime ((host.core.delay d).leaves n v) := by
  have htime : host.core.Timeless (World.Since v.log [] Event.IsTime) :=
    { now := fun w hw =>
        .of_eq (host.core.now_run · w) (hw.cons (by trivial) _)
      skip := fun _ _ _ _ hw => hw.cons (by trivial) _ }
  exact (htime.delay d).leaves (.refl v _) n

/-- Bringing up the core, gate by gate. -/
theorem run_init (host : Host σ) (power : PowerSwitch σ) (s : Link) :
    (host.init power).run.run s = (do
      match ← (power : Run Register σ (Except UsbError Unit)) with
      | .error _ => pure (.error .powerOnFailed, s)
      | .ok _ => do
        host.core.delay host.settings.powerSettle
        let id ← host.core.load .coreId
        if isDwc2Id id then do
          host.configure
          pure (.ok (), s)
        else pure (.error (.unknownController id), s)) := by
  unfold Host.init
  rw [HostM.run_lift_bind]
  congr 1
  funext granted
  cases granted with
  | error e => rfl
  | ok u =>
    dsimp only
    rw [HostM.run_lift_bind]
    congr 1
    funext _
    rw [HostM.run_lift_bind]
    congr 1
    funext id
    split
    · exact HostM.run_lift _ s
    · rfl

/-- Bringing up the core and starting both end with `e` in the world `v`, and
the driver knows no more than before. -/
def Host.FailsToStart (host : Host σ) (power : PowerSwitch σ) (s : Link)
    (timeout : Duration) (n : Nat) (w : World Register σ) (e : UsbError)
    (v : World Register σ) : Prop :=
  (host.init power).run.run s n w = .ok (.error e, s) v ∧
    (host.start power timeout).run.run s n w = .ok (.error e, s) v

/-- Bringing up the core and starting both stop in the world `v`. -/
def Host.StopsAtStart (host : Host σ) (power : PowerSwitch σ) (s : Link)
    (timeout : Duration) (n : Nat) (w : World Register σ) (halt : Halt)
    (v : World Register σ) : Prop :=
  (host.init power).run.run s n w = .error halt v ∧
    (host.start power timeout).run.run s n w = .error halt v

/-- A start that fails to bring up the core does nothing else. -/
theorem failsToStart_of_init {host : Host σ} (timeout : Duration)
    {e : UsbError} (h : (host.init power).run.run s n w = .ok (.error e, s) v) :
    host.FailsToStart power s timeout n w e v := by
  constructor
  · exact h
  · unfold Host.start
    rw [HostM.run_bind]
    exact bind_eq_ok.2 ⟨_, _, h, rfl⟩

theorem stopsAtStart_of_init {host : Host σ} (timeout : Duration) {halt : Halt}
    (h : (host.init power).run.run s n w = .error halt v) :
    host.StopsAtStart power s timeout n w halt v := by
  constructor
  · exact h
  · unfold Host.start
    rw [HostM.run_bind]
    exact bind_eq_error.2 (.inl h)

theorem switchOnUsb_refused {mailbox : Mailbox (Run Register σ)}
    {answer : Except MailboxError PropertyMessage}
    (h : mailbox 8 usbPowerRequest n w = .ok answer v)
    (hno : confirmsPower answer = false) :
    switchOnUsb mailbox n w = .ok (.error .powerOnFailed) v := by
  rw [switchOnUsb_eq]
  refine bind_eq_ok.2 ⟨answer, v, h, ?_⟩
  rw [hno]
  rfl

theorem switchOnUsb_stopped {mailbox : Mailbox (Run Register σ)} {halt : Halt}
    (h : mailbox 8 usbPowerRequest n w = .error halt v) :
    switchOnUsb mailbox n w = .error halt v := by
  rw [switchOnUsb_eq]
  exact bind_eq_error.2 (.inl h)

/-- Nothing happens after power has been refused. -/
theorem failsToStart_refused (host : Host σ) (timeout : Duration) {e : UsbError}
    (h : power n w = .ok (.error e) v) :
    host.FailsToStart power s timeout n w .powerOnFailed v := by
  apply failsToStart_of_init
  rw [run_init]
  exact bind_eq_ok.2 ⟨_, _, h, rfl⟩

theorem stopsAtStart_unpowered (host : Host σ) (timeout : Duration)
    {halt : Halt} (h : power n w = .error halt v) :
    host.StopsAtStart power s timeout n w halt v := by
  apply stopsAtStart_of_init
  rw [run_init]
  exact bind_eq_error.2 (.inl h)

/-- If the pause after that does not end, nothing happens after it. -/
theorem stopsAtStart_unsettled (host : Host σ) (timeout : Duration)
    {halt : Halt} {u : World Register σ} (h : power n w = .ok (.ok ()) v)
    (hdelay : host.core.delay host.settings.powerSettle n v = .error halt u) :
    host.StopsAtStart power s timeout n w halt u := by
  apply stopsAtStart_of_init
  rw [run_init]
  exact bind_eq_error.2 (.inr ⟨_, _, h, bind_eq_error.2 (.inl hdelay)⟩)

/-- A foreign core is asked for its identity and for nothing else. -/
theorem failsToStart_foreign (host : Host σ) (timeout : Duration)
    {u : World Register σ} {id : Word} {env : σ}
    (h : power n w = .ok (.ok ()) v)
    (hdelay : host.core.delay host.settings.powerSettle n v = .ok () u)
    (hread : host.core.bus.read .coreId u.env = (id, env))
    (hid : id >>> 12 ≠ 0x4F542) :
    host.FailsToStart power s timeout n w (.unknownController id)
      ⟨env, .read .coreId id :: u.log⟩ := by
  have hforeign : ¬ isDwc2Id id = true := mt (isDwc2Id_iff id).1 hid
  have hload : host.core.load .coreId n u =
      .ok id ⟨env, .read .coreId id :: u.log⟩ := by
    rw [host.core.load_run, hread]
    rfl
  apply failsToStart_of_init
  rw [run_init]
  refine bind_eq_ok.2 ⟨_, _, h, bind_eq_ok.2 ⟨_, _, hdelay, ?_⟩⟩
  refine bind_eq_ok.2 ⟨_, _, hload, ?_⟩
  rw [if_neg hforeign]
  rfl

end Gates

/-! ## Both gates together -/

section Untouched

variable {σ : Type}

/-- The USB block counts as switched on just if the firmware, called once and
with one message, confirms it; the answer's words that tell why not are told
apart.  Behind a refusal nothing happens, neither on the bus nor on the clock.
Whoever has granted power, what happens before the identity of the core is read
is that time passes; a clock that lets it pass comes to that reading; and if
the identity is foreign, this is the one access there is. -/
theorem usb_untouched_without_power (host : Host σ) (s : Link)
    (timeout : Duration) (n : Nat) (w : World Register σ) :
    let settle := host.settings.powerSettle
    (∀ (M : Type → Type) [Monad M] [LawfulMonad M] (mailbox : Mailbox M),
      (∀ device on, switchPower mailbox device on = (do
        let answer ← mailbox 8 (.switchPower device on)
        pure (answer.bind PropertyMessage.reportedPower))) ∧
      switchOnUsb mailbox = (do
        let answer ← mailbox 8 ⟨#v[32, 0, 0x28001, 8, 8, 3, 3, 0]⟩
        pure (if confirmsPower answer then .ok ()
          else .error .powerOnFailed))) ∧
    (∀ reply : PropertyMessage, reply.reportedPower =
      if reply.words.get 1 ≠ 0x80000000 then
        Except.error (.rejected (reply.words.get 1))
      else if (reply.words.get 4).getLsbD 31 then
        Except.ok ((reply.words.get 6).getLsbD 0)
      else Except.error (.rejected (reply.words.get 4))) ∧
    (∀ (mailbox : Mailbox (Run Register σ)) v,
      (∀ answer, mailbox 8 usbPowerRequest n w = .ok answer v →
        confirmsPower answer = false →
        host.FailsToStart (switchOnUsb mailbox) s timeout n w .powerOnFailed
          v) ∧
      ∀ halt, mailbox 8 usbPowerRequest n w = .error halt v →
        host.StopsAtStart (switchOnUsb mailbox) s timeout n w halt v) ∧
    (∀ (power : PowerSwitch σ) v, power n w = .ok (.ok ()) v →
      World.Since v.log [] Event.IsTime ((host.core.delay settle).leaves n v) ∧
      (∀ halt u, host.core.delay settle n v = .error halt u →
        host.StopsAtStart power s timeout n w halt u) ∧
      (∀ u id env, host.core.delay settle n v = .ok () u →
        host.core.bus.read .coreId u.env = (id, env) → id >>> 12 ≠ 0x4F542 →
        host.FailsToStart power s timeout n w (.unknownController id)
          ⟨env, .read .coreId id :: u.log⟩)) ∧
    ∀ (power : PowerSwitch σ) v,
      (∀ k, n ≤ k → power k w = .ok (.ok ()) v) →
      host.core.clock.Passes settle v.env →
      ∃ u enough,
        (∀ k, enough ≤ k → host.core.delay settle k v = .ok () u) ∧
        ∀ id env, host.core.bus.read .coreId u.env = (id, env) →
          id >>> 12 ≠ 0x4F542 → ∀ k, enough ≤ k →
            host.FailsToStart power s timeout k w (.unknownController id)
              ⟨env, .read .coreId id :: u.log⟩ := by
  intro settle
  refine ⟨fun M _ _ mailbox => ⟨switchPower_eq mailbox, switchOnUsb_eq mailbox⟩,
    ?_, ?_, ?_, ?_⟩
  · intro reply
    rfl
  · intro mailbox v
    constructor
    · intro answer hcall hno
      exact failsToStart_refused host timeout (switchOnUsb_refused hcall hno)
    · intro halt hcall
      exact stopsAtStart_unpowered host timeout (switchOnUsb_stopped hcall)
  · intro power v hpower
    refine ⟨delay_since host settle n v, ?_, ?_⟩
    · intro halt u hdelay
      exact stopsAtStart_unsettled host timeout hpower hdelay
    · intro u id env hdelay hread hid
      exact failsToStart_foreign host timeout hpower hdelay hread hid
  · intro power v hpower hpasses
    obtain ⟨enough, _, u, hdelay⟩ :=
      (host.core.delay_returns_iff settle v).2 hpasses
    have hsettled : ∀ k, max n enough ≤ k →
        host.core.delay settle k v = .ok () u := fun k hk =>
      host.core.delay_of_le
        (Nat.le_trans (Nat.le_max_right n enough) hk) hdelay
    refine ⟨u, max n enough, hsettled, ?_⟩
    intro id env hread hid k hk
    have hgranted := hpower k (Nat.le_trans (Nat.le_max_left n enough) hk)
    exact failsToStart_foreign host timeout hgranted (hsettled k hk) hread hid

end Untouched

/-! ## Firmware and a core that do not pass -/

/-- Firmware that answers every request and leaves the device off. -/
def stubbornFirmware : Bench.FirmwareScript :=
  .overwrite [(1, 0x80000000), (4, 0x80000008), (6, 2)]

/-- A bench with a core that is not known. -/
def foreignBench : World Register (Bench.Environment × Bench.TickingClock) :=
  ⟨({ target := .simulated { coreId := 0x4F544000 } }, {}), []⟩

/-- The firmware is called once, and stops a start before anything has happened;
the core stops it after the pause and a single reading. -/
theorem foreign_core_asked_once :
    let w : World Register (Bench.Environment × Bench.TickingClock) :=
      ⟨({}, {}), []⟩
    (switchOnUsb stubbornFirmware.recordingMailbox).run [] =
      (.error .powerOnFailed, [⟨8, usbPowerRequest⟩]) ∧
    benchHost.FailsToStart (switchOnUsb stubbornFirmware.mailbox) {}
      (.ofMillis 100) 20 w .powerOnFailed w ∧
    ∃ env enough, ∀ k, enough ≤ k →
      benchHost.FailsToStart PowerSwitch.alwaysOn {} (.ofMillis 100) k
        foreignBench (.unknownController 0x4F544000)
        ⟨env, [.read .coreId 0x4F544000, .pause (.ofMillis 50)]⟩ := by
  intro w
  obtain ⟨hcall, -, hrefusing, -⟩ :=
    usb_untouched_without_power benchHost {} (.ofMillis 100) 20 w
  obtain ⟨-, -, -, -, hforeign⟩ :=
    usb_untouched_without_power benchHost {} (.ofMillis 100) 20 foreignBench
  have hno : confirmsPower (stubbornFirmware.answer usbPowerRequest) =
      false := by
    decide
  refine ⟨?_, (hrefusing stubbornFirmware.mailbox w).1 _ rfl hno, ?_⟩
  · rw [(hcall (StateM (List Bench.FirmwareCall))
      stubbornFirmware.recordingMailbox).2]
    rfl
  · have hpasses : benchHost.core.clock.Passes benchHost.settings.powerSettle
        foreignBench.env := .inl rfl
    obtain ⟨u, enough, hdelay, hfails⟩ :=
      hforeign PowerSwitch.alwaysOn foreignBench (fun _ _ => rfl) hpasses
    cases hdelay enough (Nat.le_refl enough)
    exact ⟨_, enough, hfails 0x4F544000 _ rfl (by decide)⟩

end UsbHost
