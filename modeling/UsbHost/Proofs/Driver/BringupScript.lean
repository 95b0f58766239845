import UsbHost.Proofs.Driver.Course
import UsbHost.Proofs.Driver.Panics

/-!
# The script of bringing up the core

Bringing up the core reads status registers many times over and waits for them,
but nothing it programs depends on that.  It writes constants and settings, and
it revises a few registers: these are read, and written back with single bits
changed.  So the settings and the readings that are revised determine every
write.  `p.Scripted S` says that what a run of `p` programs is one of the
scripts `S`, or the beginning of one if the run stops early.

## Main results

* `Scripted.bind`, `Scripted.revise`, `Scripted.arm` — scripts of sequences, of
  registers that are revised, and of loops over channels.
* `raw_flag_set`, `raw_fifoSize` — the words that are written, as bit patterns.
* `scripted_configure` — the script of a configuration.
* `init_follows_script` — what bringing up a core programs.
-/

namespace UsbHost

open Run

variable {σ α β : Type} {host : Host σ}

/-! ## Programming -/

/-- The registers that bringing up the core writes back with single bits
changed. -/
def Register.isRevised : Register → Bool
  | .usbConfig | .port | .channel _ .characteristics => true
  | _ => false

/-- Writing programs the core, and so does a reading that is going to be written
back. -/
def Event.programs : Event Register → Bool
  | .write _ _ => true
  | .read r _ => r.isRevised
  | _ => false

/-- What has been programmed, and from which readings. -/
def programming (events : List (Event Register)) : List (Event Register) :=
  events.filter Event.programs

theorem programming_append (events later : List (Event Register)) :
    programming (events ++ later) = programming events ++ programming later :=
  List.filter_append events later

theorem programming_eq_nil {events : List (Event Register)}
    (h : ∀ e ∈ events, e.programs = false) : programming events = [] :=
  List.filter_eq_nil_iff.2 fun e he => Bool.eq_false_iff.1 (h e he)

/-! ## The script -/

/-- What the registers that are revised have been read as. -/
structure Readings where
  usbConfig : Word
  characteristics : Channel → Word
  port : Word

/-- A channel is disabled if it is found enabled; its interrupts are
acknowledged, and those that end an exchange are let through. -/
def arming (c : Channel) (v : Word) : List (Event Register) :=
  .read (.channel c .characteristics) v ::
    (if v.getLsbD 31 then
      [.write (.channel c .characteristics) (v ||| 0x40000000)] else []) ++
    [.write (.channel c .interrupts) 0xFFFFFFFF,
      .write (.channel c .interruptMask) 0x5BB]

/-- What is programmed to bring up a core. -/
def Settings.script (settings : Settings) (seen : Readings) :
    List (Event Register) :=
  let rx := settings.rxFifoWords.setWidth 32
  let npTx := settings.npTxFifoWords.setWidth 32
  let periodicTx := settings.periodicTxFifoWords.setWidth 32
  [.write .interruptMask 0,
    .write .ahbConfig 0,
    .write .resetControl 1,
    .write .powerClock 0,
    .read .usbConfig seen.usbConfig,
    .write .usbConfig ((seen.usbConfig &&& ~~~0x40000000) ||| 0x20000040),
    .write .rxFifoSize rx,
    .write .npTxFifoSize (npTx <<< 16 ||| rx),
    .write .periodicTxFifoSize (periodicTx <<< 16 ||| (rx + npTx)),
    .write .resetControl 0x420,
    .write .resetControl 0x10,
    .write .hostConfig 1,
    .write .frameInterval (settings.frameInterval.setWidth 32)] ++
  (Channel.all.flatMap fun c => arming c (seen.characteristics c)) ++
  [.write .channelInterruptMask 0xFF,
    .write .interruptStatus 0xFFFFFFFF,
    .write .interruptMask 0x03000018,
    .write .ahbConfig 1,
    .read .port seen.port,
    .write .port ((seen.port &&& ~~~0x2E) ||| 0x1000)]

/-! ## Programs that follow a script -/

/-- Whatever the hardware, a run of `p` that returns has programmed one of the
scripts `S`, and one that stops early the beginning of one. -/
structure Run.Scripted (p : Run Register σ α)
    (S : List (Event Register) → Prop) : Prop where
  possible : ∃ script, S script
  traces : p.Traces (fun events _ => S (programming events)) fun events =>
    ∃ script, S script ∧ programming events <+: script

namespace Run.Scripted

variable {p : Run Register σ α} {S R : List (Event Register) → Prop}

theorem mono (h : p.Scripted S) (hS : ∀ script, S script → R script) :
    p.Scripted R where
  possible := h.possible.imp hS
  traces := (h.traces.mono fun _ _ => hS _).weaken
    fun _ ⟨script, hscript, hprefix⟩ => ⟨script, hS script hscript, hprefix⟩

theorem pure {a : α} (h : S []) :
    (Pure.pure a : Run Register σ α).Scripted S where
  possible := ⟨[], h⟩
  traces := .pure h

/-- A program that does not stop early. -/
theorem of_traces (hS : ∃ script, S script)
    (h : p.Traces (fun events _ => S (programming events)) fun _ => False) :
    p.Scripted S where
  possible := hS
  traces := h.weaken fun _ => False.elim

/-- A sequence follows the script of its first part and then that of the
second. -/
theorem bind [Nonempty α] {f : α → Run Register σ β} (hp : p.Scripted S)
    (hf : ∀ a script, S script →
      (f a).Scripted fun later => R (script ++ later)) :
    (p >>= f).Scripted R := by
  obtain ⟨a⟩ := ‹Nonempty α›
  have hrest : ∀ script, S script → ∃ later, R (script ++ later) :=
    fun script hscript => (hf a script hscript).possible
  constructor
  · obtain ⟨script, hscript⟩ := hp.possible
    obtain ⟨later, hlater⟩ := hrest script hscript
    exact ⟨script ++ later, hlater⟩
  · refine hp.traces.bind ?_ fun events a hS => ?_
    · rintro events ⟨script, hscript, hprefix⟩
      obtain ⟨later, hlater⟩ := hrest script hscript
      have hwhole := hprefix.trans (List.prefix_append script later)
      exact ⟨script ++ later, hlater, hwhole⟩
    · refine ((hf a _ hS).traces.mono ?_).weaken ?_
      · intro later b hlater
        rw [programming_append]
        exact hlater
      · rintro later ⟨script, hscript, hprefix⟩
        rw [programming_append]
        exact ⟨_, hscript, (List.prefix_append_right_inj _).2 hprefix⟩

/-- What follows a program that has just one script. -/
theorem next [Nonempty α] {f : α → Run Register σ β}
    {script : List (Event Register)} (hp : p.Scripted (· = script))
    (hf : ∀ a, (f a).Scripted fun later => R (script ++ later)) :
    (p >>= f).Scripted R := by
  refine hp.bind ?_
  rintro a _ rfl
  exact hf a

/-- Nothing is programmed. -/
theorem silent
    (h : p.Traces (fun events _ => ∀ e ∈ events, e.programs = false)
      fun events => ∀ e ∈ events, e.programs = false) :
    p.Scripted (· = []) where
  possible := ⟨[], rfl⟩
  traces := (h.mono fun _ _ => programming_eq_nil).weaken
    fun _ hevents => ⟨[], rfl, programming_eq_nil hevents ▸ List.prefix_rfl⟩

/-- One register is written. -/
theorem store (r : Register) {content : r.Content} {v : Word}
    (hv : r.encode content = v) :
    (host.core.store r content).Scripted (· = [.write r v]) := by
  refine .of_traces ⟨_, rfl⟩ ((traces_store r content).mono ?_)
  rintro _ _ rfl
  rw [hv]
  rfl

theorem storeOnes (r : Register) :
    (host.core.storeOnes r).Scripted (· = [.write r 0xFFFFFFFF]) := by
  refine .of_traces ⟨_, rfl⟩ ((traces_storeOnes r).mono ?_)
  rintro _ _ rfl
  rfl

/-- What follows the reading of a register that is revised. -/
theorem revise {r : Register} (hr : r.isRevised = true)
    {f : r.Content → Run Register σ α}
    (hf : ∀ v, (f (r.decode v)).Scripted fun later =>
      S (.read r v :: later)) :
    (host.core.load r >>= f).Scripted S := by
  have hprograms : ∀ v later, programming ([.read r v] ++ later) =
      .read r v :: programming later :=
    fun v later => List.filter_cons_of_pos hr
  constructor
  · obtain ⟨later, hlater⟩ := (hf 0).possible
    exact ⟨_, hlater⟩
  · refine (traces_load r).after ?_
    rintro _ _ ⟨v, rfl, rfl⟩
    refine ((hf v).traces.mono ?_).weaken ?_
    · intro later a hlater
      rw [hprograms]
      exact hlater
    · rintro later ⟨script, hscript, hprefix⟩
      rw [hprograms]
      exact ⟨_, hscript, (List.prefix_cons_inj _).2 hprefix⟩

/-- A wait programs nothing, whether it is met or not. -/
theorem waitFor (timeout : Duration) {r : Register}
    (hr : r.isRevised = false) (tells : r.Content → Bool) :
    (host.core.waitUntil timeout
      (do return tells (← host.core.load r))).Scripted (· = []) := by
  have hmisses : ∀ e : Event Register,
      e.Misses r (fun v => tells (r.decode v)) → e.programs = false := by
    intro e he
    cases e with
    | read r' v => exact he.1 ▸ hr
    | clock t => rfl
    | _ => exact he.elim
  refine silent (((traces_waitFor timeout r tells fun _ => rfl).mono ?_).weaken
    fun events h e he => hmisses e (h e he))
  rintro _ met ⟨⟨before, v, rfl, hbefore, -⟩, -⟩
  refine List.forall_mem_append.2 ⟨fun e he => hmisses e (hbefore e he), ?_⟩
  exact List.forall_mem_singleton.2 hr

theorem delay (d : Duration) : (host.core.delay d).Scripted (· = []) :=
  silent (host.core.traces_delay d (fun _ => rfl) fun _ => rfl)

/-- The channels of a list are armed one after the other. -/
theorem arm {f : Channel → Run Register σ Unit}
    (hf : ∀ c, (f c).Scripted fun script => ∃ v, script = arming c v)
    {channels : List Channel} (hnodup : channels.Nodup) :
    (channels.forM f).Scripted fun script =>
      ∃ characteristics : Channel → Word,
        script = channels.flatMap fun c => arming c (characteristics c) := by
  induction channels with
  | nil => exact .pure ⟨fun _ => 0, rfl⟩
  | cons c rest ih =>
    obtain ⟨hc, hrest⟩ := List.nodup_cons.1 hnodup
    refine (hf c).bind ?_
    rintro _ _ ⟨v, rfl⟩
    refine (ih hrest).mono ?_
    rintro _ ⟨characteristics, rfl⟩
    refine ⟨Function.update characteristics c v, ?_⟩
    have hkept : ∀ d ∈ rest,
        arming d (Function.update characteristics c v d) =
          arming d (characteristics d) := by
      intro d hd
      have hne : d ≠ c := fun e => hc (e ▸ hd)
      rw [Function.update_of_ne hne]
    rw [List.flatMap_cons, Function.update_self, List.flatMap_congr hkept]

end Run.Scripted

/-! ## Words that are written -/

/-- Setting a single bit keeps the others. -/
theorem raw_flag_set {R : Type} {n : Nat} [Packed R n] {lo : Nat}
    (fits : lo + 1 ≤ n) (on : Bool) (r : R) :
    Packed.raw ((BitField.flag lo fits : BitField R Bool).set on r) =
      if on then Packed.raw r ||| BitVec.twoPow n lo
      else Packed.raw r &&& ~~~BitVec.twoPow n lo := by
  apply BitVec.eq_of_getLsbD_eq
  intro i hi
  have hcovers : (BitField.flag lo fits : BitField R Bool).Covers i ↔
      lo = i := by
    show lo ≤ i ∧ i < lo + 1 ↔ lo = i
    omega
  rw [BitField.getLsbD_set]
  simp only [hcovers]
  by_cases h : lo = i
  · have hencode : (Coding.flag.encode on).getLsbD (i - lo) = on := by
      rw [h, Nat.sub_self]
      cases on <;> rfl
    rw [if_pos h]
    refine hencode.trans ?_
    cases on <;> simp [h, hi]
  · have h' : ¬ i = lo := Ne.symm h
    cases on <;> simp [h, h', hi]

/-- The depth of a FIFO stands above its start. -/
theorem raw_fifoSize (start words : Half) :
    (FifoSize.of start words).raw =
      words.setWidth 32 <<< 16 ||| start.setWidth 32 := by
  apply BitVec.eq_of_getLsbD_eq
  intro i hi
  have hstart : FifoSize.startAddress.Covers i ↔ i < 16 := by
    show 0 ≤ i ∧ i < 16 ↔ i < 16
    omega
  have hdepth : FifoSize.depth.Covers i ↔ 16 ≤ i := by
    show 16 ≤ i ∧ i < 32 ↔ 16 ≤ i
    omega
  refine (BitField.getLsbD_set FifoSize.startAddress start _ i).trans ?_
  rw [BitVec.getLsbD_or, BitVec.getLsbD_shiftLeft, BitVec.getLsbD_setWidth,
    BitVec.getLsbD_setWidth, BitField.getLsbD_set]
  simp only [hstart, hdepth]
  by_cases h : i < 16
  · simp [h, hi, FifoSize.startAddress, BitField.uint, Coding.uint]
  · simp [h, hi, Nat.not_lt.1 h, FifoSize.depth, BitField.uint, Coding.uint]
    omega

theorem raw_disabled (v : Word) :
    (ChannelCharacteristics.disable.set true ⟨v⟩).raw = v ||| 0x40000000 :=
  raw_flag_set (R := ChannelCharacteristics) _ true ⟨v⟩

theorem raw_fullSpeedHost (v : Word) :
    (UsbConfig.fullSpeedPhy.set true <| UsbConfig.forceHost.set true <|
      UsbConfig.forceDevice.set false ⟨v⟩).raw =
        (v &&& ~~~0x40000000) ||| 0x20000040 := by
  let device : UsbConfig := UsbConfig.forceDevice.set false ⟨v⟩
  have hdevice : Packed.raw device = v &&& ~~~0x40000000 :=
    raw_flag_set _ false (UsbConfig.mk v)
  have hhost : Packed.raw (UsbConfig.forceHost.set true device) =
      Packed.raw device ||| 0x20000000 :=
    raw_flag_set _ true device
  refine (raw_flag_set _ true (UsbConfig.forceHost.set true device)).trans ?_
  rw [if_pos rfl, hhost, hdevice, BitVec.or_assoc]
  rfl

theorem raw_powered (v : Word) :
    (HostPort.power.set true (HostPort.quiet ⟨v⟩)).raw =
      (v &&& ~~~0x2E) ||| 0x1000 :=
  raw_flag_set (R := HostPort) _ true (HostPort.quiet ⟨v⟩)

/-! ## Stages -/

theorem scripted_resetCore :
    host.resetCore.Scripted (· = [.write .resetControl 1]) := by
  refine (Scripted.waitFor _ rfl _).next fun _ => ?_
  refine (Scripted.store _ rfl).next fun _ => ?_
  refine (Scripted.waitFor _ rfl _).next fun _ => ?_
  refine (Scripted.delay _).mono ?_
  rintro _ rfl
  rfl

theorem scripted_forceHostMode :
    host.forceHostMode.Scripted fun script => ∃ v, script =
      [.read .usbConfig v,
        .write .usbConfig ((v &&& ~~~0x40000000) ||| 0x20000040)] := by
  refine .revise rfl fun v => ?_
  refine (Scripted.store .usbConfig (raw_fullSpeedHost v)).next fun _ => ?_
  refine (Scripted.delay _).next fun _ => ?_
  refine (Scripted.waitFor _ rfl _).next fun _ => ?_
  exact .pure ⟨v, rfl⟩

/-- The sum of two sizes, if it fits into sixteen bits. -/
theorem setWidth_add_of_fits {a b : Half} (h : a.toNat + b.toNat ≤ 65535) :
    (a + b).setWidth 32 = a.setWidth 32 + b.setWidth 32 := by
  apply BitVec.eq_of_toNat_eq
  simp only [BitVec.toNat_setWidth, BitVec.toNat_add]
  omega

theorem scripted_divideFifos (hfits : ¬ host.settings.FifosOverflow) :
    let rx := host.settings.rxFifoWords.setWidth 32
    let npTx := host.settings.npTxFifoWords.setWidth 32
    let periodicTx := host.settings.periodicTxFifoWords.setWidth 32
    host.divideFifos.Scripted (· =
      [.write .rxFifoSize rx,
        .write .npTxFifoSize (npTx <<< 16 ||| rx),
        .write .periodicTxFifoSize (periodicTx <<< 16 ||| (rx + npTx))]) := by
  have hsum := Decidable.not_not.1 (mt (fifosOverflow_iff _).2 hfits)
  have hstart := setWidth_add_of_fits (Nat.not_lt.1 hfits)
  refine (Scripted.store _ rfl).next fun _ => ?_
  refine (Scripted.store .npTxFifoSize (raw_fifoSize _ _)).next fun _ => ?_
  rw [add_eq hsum, pure_bind]
  refine (Scripted.store .periodicTxFifoSize (raw_fifoSize _ _)).mono ?_
  rintro _ rfl
  rw [hstart]
  rfl

theorem scripted_emptyFifos :
    host.emptyFifos.Scripted (· =
      [.write .resetControl 0x420, .write .resetControl 0x10]) := by
  refine (Scripted.store _ rfl).next fun _ => ?_
  refine (Scripted.waitFor _ rfl _).next fun _ => ?_
  refine (Scripted.store _ rfl).next fun _ => ?_
  refine (Scripted.waitFor _ rfl _).next fun _ => ?_
  exact .pure rfl

/-- A channel is disabled just if it is found enabled. -/
theorem scripted_quiesce (c : Channel) :
    (host.quiesce c).Scripted fun script => ∃ v, script =
      .read (.channel c .characteristics) v ::
        (if v.getLsbD 31 then
          [.write (.channel c .characteristics) (v ||| 0x40000000)] else []) ++
        [.write (.channel c .interrupts) 0xFFFFFFFF] := by
  have henable : ∀ v : Word,
      ChannelCharacteristics.enable.get ⟨v⟩ = v.getLsbD 31 :=
    fun v => BitField.get_flag _ _
  refine .revise rfl fun v => ?_
  dsimp only
  rw [show ChannelCharacteristics.enable.get
    ((Register.channel c .characteristics).decode v) = v.getLsbD 31 from
      henable v]
  split
  next hv =>
    refine (Scripted.store (.channel c .characteristics)
      (raw_disabled v)).next fun _ => ?_
    refine (Scripted.waitFor _ rfl _).next fun _ => ?_
    refine (Scripted.storeOnes _).mono ?_
    rintro _ rfl
    exact ⟨v, by rw [if_pos hv]; rfl⟩
  next hv =>
    refine (Scripted.storeOnes _).mono ?_
    rintro _ rfl
    exact ⟨v, by rw [if_neg hv]; rfl⟩

theorem scripted_armChannels :
    host.armChannels.Scripted fun script =>
      ∃ characteristics : Channel → Word, script =
        (Channel.all.flatMap fun c => arming c (characteristics c)) ++
          [.write .channelInterruptMask 0xFF] := by
  have harm : ∀ c, (do
      host.quiesce c
      host.core.store (.channel c .interruptMask) ChannelInterrupts.armed :
        Run Register σ Unit).Scripted fun script =>
          ∃ v, script = arming c v := by
    intro c
    refine (scripted_quiesce c).bind ?_
    rintro _ _ ⟨v, rfl⟩
    refine (Scripted.store _ rfl).mono ?_
    rintro _ rfl
    exact ⟨v, List.append_assoc _ _ _⟩
  refine (Scripted.arm harm (List.nodup_finRange 8)).bind ?_
  rintro _ _ ⟨characteristics, rfl⟩
  refine (Scripted.store _ rfl).mono ?_
  rintro _ rfl
  exact ⟨characteristics, rfl⟩

theorem scripted_powerPort :
    (host.core.updatePort { power := some true }).Scripted fun script =>
      ∃ v, script =
        [.read .port v, .write .port ((v &&& ~~~0x2E) ||| 0x1000)] := by
  refine .revise rfl fun v => ?_
  refine (Scripted.store .port (raw_powered v)).mono ?_
  rintro _ rfl
  exact ⟨v, rfl⟩

/-- If the FIFO memory can be divided, a configuration follows the script. -/
theorem scripted_configure (hfits : ¬ host.settings.FifosOverflow) :
    host.configure.Scripted fun script =>
      ∃ seen, script = host.settings.script seen := by
  refine (Scripted.store _ rfl).next fun _ => ?_
  refine (Scripted.store _ rfl).next fun _ => ?_
  refine scripted_resetCore.next fun _ => ?_
  refine (Scripted.store _ rfl).next fun _ => ?_
  refine (Scripted.delay _).next fun _ => ?_
  refine scripted_forceHostMode.bind ?_
  rintro _ _ ⟨usbConfig, rfl⟩
  refine (scripted_divideFifos hfits).next fun _ => ?_
  refine scripted_emptyFifos.next fun _ => ?_
  refine (Scripted.store _ rfl).next fun _ => ?_
  refine (Scripted.store _ rfl).next fun _ => ?_
  refine scripted_armChannels.bind ?_
  rintro _ _ ⟨characteristics, rfl⟩
  refine (Scripted.storeOnes _).next fun _ => ?_
  refine (Scripted.store _ rfl).next fun _ => ?_
  refine (Scripted.store _ rfl).next fun _ => ?_
  refine scripted_powerPort.bind ?_
  rintro _ _ ⟨port, rfl⟩
  refine (Scripted.delay _).mono ?_
  rintro _ rfl
  refine ⟨⟨usbConfig, characteristics, port⟩, ?_⟩
  simp only [Settings.script, List.append_assoc, List.cons_append,
    List.nil_append, List.append_nil]
  rfl

/-! ## Bringing up the core -/

section Bringup

variable {power : PowerSwitch σ} {n : Nat} {w w' granted v : World Register σ}

/-- Until the core has been identified nothing is programmed. -/
theorem identifies_silent (h : host.Identifies power n w granted v) :
    ∃ events, granted.Through events v ∧ programming events = [] := by
  obtain ⟨-, u, id, hdelay, hload, -⟩ := h
  obtain ⟨settling, hsettling, hnil⟩ :=
    (Scripted.delay host.settings.powerSettle).traces.of_run hdelay
  obtain ⟨_, hreading, v, rfl, -⟩ := (traces_load .coreId).of_run hload
  refine ⟨_, hsettling.trans hreading, ?_⟩
  rw [programming_append, hnil]
  rfl

/-- What comes after events that program nothing. -/
theorem through_of_silent {S : List (Event Register) → Prop}
    (h : ∃ events, granted.Through events v ∧ programming events = [])
    (h' : ∃ events, v.Through events w' ∧ S (programming events)) :
    ∃ events, granted.Through events w' ∧ S (programming events) := by
  obtain ⟨earlier, hearlier, hnil⟩ := h
  obtain ⟨events, hevents, hS⟩ := h'
  refine ⟨earlier ++ events, hearlier.trans hevents, ?_⟩
  rw [programming_append, hnil]
  exact hS

end Bringup

/-- Once power has been granted and the core identified, the settings and the
readings that are revised determine what is programmed, however often and with
whatever outcome the status of the core is asked for.  If the FIFO memory can be
divided, bringing up the core does not fail: it returns with the whole script
done, or it is still waiting with the beginning of one done. -/
theorem init_follows_script (host : Host σ) (power : PowerSwitch σ) (s : Link)
    {n : Nat} {w granted v : World Register σ}
    (hfits : host.settings.rxFifoWords.toNat +
      host.settings.npTxFifoWords.toNat ≤ 65535)
    (hid : host.Identifies power n w granted v) :
    (∀ r s' w', (host.init power).run.run s n w = .ok (r, s') w' →
      r = .ok () ∧ s' = s ∧ ∃ events seen, granted.Through events w' ∧
        programming events = host.settings.script seen) ∧
    ∀ halt w', (host.init power).run.run s n w = .error halt w' →
      halt = .unfinished ∧ ∃ events seen, granted.Through events w' ∧
        programming events <+: host.settings.script seen := by
  have hoverflow : ¬ host.settings.FifosOverflow := Nat.not_lt.2 hfits
  have hscripted := (scripted_configure hoverflow).traces v
  have hsilent := identifies_silent hid
  rw [init_of_identifies hid]
  constructor
  · intro r s' w' hrun
    obtain ⟨_, v', hconfigure, hpure⟩ := bind_eq_ok.1 hrun
    cases hpure
    obtain ⟨events, hevents, seen, hseen⟩ :=
      through_of_silent
        (S := fun script => ∃ seen, script = host.settings.script seen)
        hsilent (hscripted.ok n _ _ hconfigure)
    exact ⟨rfl, rfl, events, seen, hevents, hseen⟩
  · intro halt w' hrun
    obtain hconfigure | ⟨_, _, -, hpure⟩ := bind_eq_error.1 hrun
    · have hhalt : halt = .unfinished := by
        by_contra he
        exact hoverflow (configure_panic hconfigure he).1
      obtain ⟨events, hevents, _, ⟨seen, rfl⟩, hprefix⟩ :=
        through_of_silent
          (S := fun script => ∃ whole,
            (∃ seen, whole = host.settings.script seen) ∧ script <+: whole)
          hsilent (hscripted.error n _ _ hconfigure)
      exact ⟨hhalt, events, seen, hevents, hprefix⟩
    · exact nomatch hpure

/-- A core of which every other register reads as all ones, whatever is
written. -/
def stuckCore : Bus Register Unit where
  read r b := (if r = .coreId then 0x4F54280A else 0xFFFFFFFF, b)
  write _ _ b := b

/-- A clock that shows no progress, and no wait that allows for any. -/
def stuckHost : Host Unit where
  core :=
    { bus := stuckCore
      clock := ⟨fun b => (.zero, b), some fun _ b => b⟩ }
  settings :=
    { coreResetTimeout := .zero
      fifoFlushTimeout := .zero
      rxFifoWords := 65280
      npTxFifoWords := 255 }

/-- There every reset and every flush times out, and every channel is found
enabled. -/
theorem stuck_core_brought_up :
    let w : World Register Unit := ⟨(), []⟩
    let power : PowerSwitch Unit := PowerSwitch.alwaysOn
    stuckHost.settings.rxFifoWords.toNat +
      stuckHost.settings.npTxFifoWords.toNat ≤ 65535 ∧
    ∃ v w' events seen, stuckHost.Identifies power 2 w w v ∧
      (stuckHost.init power).run.run {} 2 w = .ok (.ok (), {}) w' ∧
      w.Through events w' ∧
      programming events = stuckHost.settings.script seen ∧
      (programming events).length = 51 := by
  intro w power
  have hfits : stuckHost.settings.rxFifoWords.toNat +
      stuckHost.settings.npTxFifoWords.toNat ≤ 65535 := by
    decide
  have hreturns : ((stuckHost.init power).run.run {}).returns 2 w
      (fun _ w' => (programming w'.log.reverse).length = 51) = true := by
    decide +kernel
  obtain ⟨⟨r, s'⟩, w', hrun, hlength⟩ := exists_of_returns hreturns
  have hid : stuckHost.Identifies power 2 w w
      ⟨(), [.read .coreId 0x4F54280A, .pause (.ofMillis 50)]⟩ :=
    ⟨rfl, _, _, rfl, rfl, by decide⟩
  obtain ⟨rfl, rfl, events, seen, hevents, hseen⟩ :=
    (init_follows_script stuckHost power {} hfits hid).1 r s' w' hrun
  have hlog : w'.log.reverse = events := by
    rw [hevents, List.reverse_append, List.reverse_reverse]
    rfl
  rw [hlog] at hlength
  exact ⟨hfits, _, w', events, seen, hid, hrun, hevents, hseen,
    of_decide_eq_true hlength⟩

end UsbHost
