import UsbHost.Driver.Operation
import UsbHost.Proofs.Host.Polling
import UsbHost.Proofs.Simulation.Enumeration

/-!
# What the driver believes and where the device is

A driver that takes its device to be enumerated takes it to answer at address 1
and to be configured.  That is so after every operation, in any order, whatever
becomes of the device and of the port in between, with one exception: a bus
reset whose port does not come up again has put the device back into its default
state, but leaves what the driver believes untouched.

## Main results

* `Tracks` — what relates the driver's belief to the device.
* `leads_enumerate_tracks`, `leads_start_tracks` — the operations that reset the
  bus.
* `tracks_step`, `History.tracks` — one operation, and any number of them.
* `agrees_iff` — the belief is right just if the last bus reset has not timed
  out.
-/

namespace UsbHost.Simulation

/-! ## Belief and device -/

/-- The driver's belief about an honest device, where `stranded` says that the
last bus reset has timed out.  A driver that takes the device to be enumerated
knows it at its assigned address; the device is there and configured, or
stranded at address 0. -/
structure Tracks (s : Link) (d : Device) (stranded : Bool) : Prop where
  honest : d.Honest
  sized : s.Sized
  address : s.enumerated = true → s.address = assignedAddress
  reached : s.enumerated = true → stranded = false →
    d.address = assignedAddress ∧ d.configuration.isSome = true
  lost : s.enumerated = true → stranded = true → d.address = 0

namespace Tracks

variable {s s' : Link} {d d' : Device} {stranded stranded' : Bool}

/-- What changes neither belief nor standing. -/
theorem kept (h : Tracks s d stranded) (hs : s'.Sized)
    (he : s'.enumerated = s.enumerated) (ha : s'.address = s.address)
    (hd : d.SameStanding d') : Tracks s' d' stranded := by
  constructor
  · exact hd.honest h.honest
  · exact hs
  · rw [he, ha]
    exact h.address
  · rw [he, hd.address, hd.configuration]
    exact h.reached
  · rw [he, hd.address]
    exact h.lost

/-- What happens to the device alone. -/
theorem standing (h : Tracks s d stranded) (hd : d.SameStanding d') :
    Tracks s d' stranded :=
  h.kept h.sized rfl rfl hd

/-- Nothing is believed of a device that is not enumerated. -/
theorem unknown (hd : d.Honest) (hm : s.Sized) (hs : s.enumerated = false) :
    Tracks s d stranded := by
  constructor
  · exact hd
  · exact hm
  · rw [hs]
    exact nofun
  · rw [hs]
    exact nofun
  · rw [hs]
    exact nofun

/-- A bus reset behind the driver's back. -/
theorem busReset (h : Tracks s d stranded) : Tracks s d.busReset true :=
  ⟨h.honest, h.sized, h.address, fun _ => nofun, fun _ _ => rfl⟩

/-- The belief is right just if the device is not stranded. -/
theorem agrees_iff (h : Tracks s d stranded) (he : s.enumerated = true) :
    d.address = s.address ∧ d.configuration.isSome = true ↔
      stranded = false := by
  cases stranded with
  | false =>
    obtain ⟨ha, hc⟩ := h.reached he rfl
    rw [h.address he]
    exact ⟨fun _ => rfl, fun _ => ⟨ha, hc⟩⟩
  | true =>
    rw [h.address he, h.lost he rfl]
    constructor
    · intro hfalse
      exact absurd hfalse.1 (by decide)
    · exact nofun

end Tracks

/-! ## Operations that leave the bus alone -/

/-- Only a control transaction changes where a device answers or how it is
configured. -/
theorem Device.respond_standing {d : Device} {t : Transaction}
    (ht : t.type ≠ .control) : d.SameStanding (d.respond t).2 := by
  rcases Option.eq_none_or_eq_some d.forced with hf | ⟨response, hf⟩
  · have hnot : ¬ (t.type = .control ∧ t.endpoint = 0) := fun h => ht h.1
    unfold respond
    rw [hf]
    dsimp only
    rw [if_neg hnot]
    split
    · exact .refl d
    · split
      · exact ⟨rfl, rfl, hf.symm⟩
      · split
        · cases d.reports with
          | nil => exact .refl d
          | cons report rest => exact ⟨rfl, rfl, hf.symm⟩
        · exact .refl d
  · rw [respond_of_forced d hf]
    exact .refl d

section Operations

variable {τ : Type} {clock : Clock τ} {settings : Settings} {k : Controller}
  {s : Link} {stranded : Bool}

/-- A poll moves the toggle at most, and keeps the standing of the device. -/
theorem leads_readReport_tracks (h : Tracks s k.device stranded)
    (report : List Byte) :
    Leads False (((hostOn clock settings).readReport report).run s) k
      fun r k' => Tracks r.2 k'.device stranded := by
  rw [Host.run_readReport]
  cases s.pollable? with
  | none => exact .pure h
  | some hid =>
    refine (leads_transfer rfl False.elim).bind ?_
    intro moved k' hmoved
    obtain ⟨rfl, hk'⟩ := hmoved
    have hstanding : k.device.SameStanding k'.device := by
      rw [hk'.device_eq, outcome_device]
      split
      · exact .refl _
      · exact Device.respond_standing nofun
    cases (k.outcome s (Host.pollExchange s hid) report _).1.result with
    | ok count => exact .pure (h.kept h.sized rfl rfl hstanding)
    | error e => exact .pure (h.standing hstanding)

theorem leads_poll_tracks (h : Tracks s k.device stranded) (pad : Gamepad) :
    Leads False ((pad.poll (hostOn clock settings)).run s) k
      fun r k' => Tracks r.2 k'.device stranded := by
  rw [Gamepad.run_poll]
  refine (leads_readReport_tracks h _).bind fun r k' hr => ?_
  dsimp only
  cases r.1.result with
  | ok count =>
    refine (leads_slice (Q := fun _ k'' => k' = k'') False.elim
      fun _ => rfl).bind ?_
    intro message k'' hk''
    subst hk''
    exact .pure hr
  | error e =>
    dsimp only
    split
    · exact .pure hr
    · exact .pure hr

/-! ## Operations that reset the bus -/

/-- Whether the device is stranded after an operation that resets the bus. -/
def strandedBy (result : Except UsbError Unit) (before : Bool) : Bool :=
  match result with
  | .ok _ => false
  | .error .portEnableTimeout => true
  | .error _ => before

theorem leads_resetBus_tracks (h : Tracks s k.device stranded) :
    Leads False ((hostOn clock settings).resetBus.run.run s) k fun r k' =>
      Tracks r.2 k'.device (strandedBy r.1 stranded) := by
  refine (leads_resetBus False.elim False.elim).mono ?_
  rintro r k' (⟨-, rfl, rfl⟩ | ⟨-, hk', rfl⟩)
  · exact h
  · rw [hk'.device_eq]
    cases k.port.stuck with
    | true => exact h.busReset
    | false => exact .unknown h.honest (.inl rfl) rfl

/-- Reading a descriptor keeps the standing of the device. -/
theorem leads_readDescriptor_standing {kind : DescriptorType} {size : Nat}
    (hhonest : k.device.Honest) (hs : s.Sized) (hsize : size ≠ 0) :
    Leads False (((hostOn clock settings).readDescriptor kind size).run.run s) k
      fun r k' => r.2 = s ∧ k.device.SameStanding k'.device := by
  refine leads_request_standing hhonest hs (fun _ h => ?_) (fun d => ?_)
    False.elim
  · exact hsize (List.replicate_eq_nil_iff 0 |>.1 h)
  · rw [Device.apply_getDescriptor]
    exact .refl d

/-- While nothing is believed of an honest device, a step that fails leaves
nothing to be kept. -/
theorem leads_unknown_bind {α : Type} {p : HostM (Controller × τ) α}
    {f : α → HostM (Controller × τ) Unit}
    {R : Except UsbError α × Link → Controller → Prop} (hs : s.Sized)
    (he : s.enumerated = false) (hp : Leads False (p.run.run s) k R)
    (hR : ∀ r k', R r k' → r.2 = s ∧ k'.device.Honest)
    (hf : ∀ a k', R (.ok a, s) k' →
      Leads False ((f a).run.run s) k' fun r k'' =>
        Tracks r.2 k''.device (strandedBy r.1 stranded)) :
    Leads False ((p >>= f).run.run s) k fun r k' =>
      Tracks r.2 k'.device (strandedBy r.1 stranded) := by
  refine leads_run_bind hp (fun a s' k' h => ?_) fun e s' k' h => ?_
  · obtain rfl : s' = s := (hR _ _ h).1
    exact hf a k' h
  · obtain ⟨rfl, hhonest⟩ := hR _ _ h
    exact .unknown hhonest hs he

/-- Once the first bytes of its descriptor are there, enumeration believes again
only when the device has its address and is configured. -/
theorem leads_enumerate_of_head (stranded : Bool)
    {R : Except UsbError (Nat × List Byte) × Link → Controller → Prop}
    {Q : Except UsbError Unit × Link → Controller → Prop}
    (hhead : Leads False (((hostOn clock settings).readDescriptor
      .device 8).run.run { s with enumerated := false }) k R)
    (hfail : ∀ e s' k', R (.error e, s') k' → Q (.error e, s') k')
    (hok : ∀ a s' k', R (.ok a, s') k' →
      k'.device.Honest ∧ s'.enumerated = false)
    (hQ : ∀ r k', Tracks r.2 k'.device (strandedBy r.1 stranded) → Q r k') :
    Leads False ((hostOn clock settings).enumerate.run.run s) k Q := by
  unfold Host.enumerate
  refine leads_run_modify (leads_run_bind hhead ?_ hfail)
  rintro ⟨n, head⟩ s₁ k₁ hR
  obtain ⟨hhonest₁, he₁⟩ := hok _ _ _ hR
  refine Leads.mono ?_ hQ
  have hm : ∀ s' : Link, s'.ep0MaxPacket = ep0PacketSize (byteAt head 7) →
      s'.Sized := by
    intro s' h
    have hlegal := ep0PacketSize_legal (byteAt head 7) s'
    unfold Link.Sized at hlegal ⊢
    rw [h]
    exact hlegal
  refine leads_run_modify ?_
  refine leads_run_bind (leads_resetBus False.elim False.elim) ?_ ?_
  rotate_left
  · rintro e s' k₂ (⟨-, hr, rfl⟩ | ⟨-, hk₂, hr⟩)
    · cases hr
      exact .unknown hhonest₁ (hm _ rfl) he₁
    · split at hr
      · cases hr
        refine .unknown ?_ (hm _ rfl) he₁
        rw [hk₂.device_eq]
        exact hhonest₁
      · exact nomatch hr
  rintro _ s' k₂ (⟨-, hr, -⟩ | ⟨-, hk₂, hr⟩)
  · exact nomatch hr
  split at hr
  · exact nomatch hr
  cases hr
  have hhonest₂ : k₂.device.Honest := by
    rw [hk₂.device_eq]
    exact hhonest₁
  refine leads_run_modify (leads_run_lift (leads_delay
    (Q := fun _ k' => k₂ = k') False.elim rfl) ?_)
  rintro _ _ rfl
  refine leads_unknown_bind (hm _ rfl) rfl (leads_request_applied hhonest₂
    (hm _ rfl) (fun hl => absurd (Device.get_length ..) hl) False.elim)
    (fun _ _ h => ⟨h.1, h.2.honest hhonest₂⟩) ?_
  rintro ⟨count, rest⟩ k₃ ⟨-, hk₃⟩
  have hhonest₃ := hk₃.honest hhonest₂
  have ha₃ : k₃.device.address = assignedAddress := by
    obtain ⟨d, -, hd⟩ := hk₃.of_ok
    rw [hd, Device.apply_setAddress]
  refine leads_run_modify (leads_run_lift (leads_delay
    (Q := fun _ k' => k₃ = k') False.elim rfl) ?_)
  rintro _ _ rfl
  refine leads_unknown_bind (hm _ rfl) rfl (leads_readDescriptor_standing
    hhonest₃ (hm _ rfl) (by decide))
    (fun _ _ h => ⟨h.1, h.2.honest hhonest₃⟩) ?_
  rintro _ k₄ ⟨-, hk₄⟩
  have hhonest₄ := hk₄.honest hhonest₃
  refine leads_unknown_bind (hm _ rfl) rfl (leads_readDescriptor_standing
    hhonest₄ (hm _ rfl) (by decide))
    (fun _ _ h => ⟨h.1, h.2.honest hhonest₄⟩) ?_
  rintro ⟨length, buffer⟩ k₅ ⟨-, hk₅⟩
  have hhonest₅ := hk₅.honest hhonest₄
  refine leads_run_lift (leads_slice (Q := fun _ k' => k₅ = k') False.elim
    fun _ => rfl) ?_
  rintro configuration _ rfl
  cases HidEndpoint.find? configuration with
  | none => exact leads_run_throw (.unknown hhonest₅ (hm _ rfl) rfl)
  | some hid =>
    refine leads_run_modify (leads_unknown_bind (hm _ rfl) rfl
      (leads_request_applied hhonest₅ (hm _ rfl)
        (fun hl => absurd (Device.get_length ..) hl) False.elim)
      (fun _ _ h => ⟨h.1, h.2.honest hhonest₅⟩) ?_)
    rintro ⟨count, rest⟩ k₆ ⟨-, hk₆⟩
    obtain ⟨d, hd, hdevice⟩ := hk₆.of_ok
    rw [Device.apply_setConfiguration] at hdevice
    have ha₆ : k₆.device.address = assignedAddress := by
      rw [hdevice]
      exact hd.address.trans (hk₅.address.trans (hk₄.address.trans ha₃))
    have hc₆ : k₆.device.configuration.isSome = true := by
      rw [hdevice]
      rfl
    exact .pure ⟨hk₆.honest hhonest₅, hm _ rfl, fun _ => rfl,
      fun _ _ => ⟨ha₆, hc₆⟩, fun _ => nofun⟩

/-- Enumeration forgets what it believed before it begins, and believes again
only when the device has its address and is configured. -/
theorem leads_enumerate_tracks (stranded : Bool) (hhonest : k.device.Honest)
    (hs : s.Sized) :
    Leads False ((hostOn clock settings).enumerate.run.run s) k fun r k' =>
      Tracks r.2 k'.device (strandedBy r.1 stranded) := by
  refine leads_enumerate_of_head stranded
    (leads_readDescriptor_standing hhonest hs (by decide)) ?_ ?_
    fun _ _ h => h
  · rintro e s' k' ⟨rfl, hstanding⟩
    exact .unknown (hstanding.honest hhonest) hs rfl
  · rintro a s' k' ⟨rfl, hstanding⟩
    exact ⟨hstanding.honest hhonest, rfl⟩

/-- Bring-up leaves what it finds alone until the first bus reset. -/
theorem leads_start_tracks {power : PowerSwitch (Controller × τ)}
    {timeout : Duration} (h : Tracks s k.device stranded)
    (hpower : Leads False power k fun _ k' => k' = k) :
    Leads False (((hostOn clock settings).start power timeout).run.run s) k
      fun r k' => Tracks r.2 k'.device (strandedBy r.1 stranded) := by
  unfold Host.start
  refine leads_run_bind (leads_init (hpower.mono fun _ _ hk => ⟨hk, False.elim⟩)
    False.elim False.elim) ?_ ?_
  rotate_left
  · rintro e s' k₁ ⟨hk₁, rfl, hr⟩
    rw [hk₁.device]
    rcases hr with hr | ⟨-, hr | hr⟩
    · exact nomatch hr
    · cases hr
      exact h
    · cases hr
      exact h
  rintro _ s' k₁ ⟨hk₁, rfl, -⟩
  have h₁ : Tracks s' k₁.device stranded := by
    rw [hk₁.device]
    exact h
  refine leads_run_lift (leads_awaitDevice False.elim False.elim) ?_
  rintro found k₁ ⟨rfl, rfl⟩
  cases k₁.port.attached with
  | false => exact .pure h₁
  | true =>
    rw [if_neg (by decide)]
    refine leads_run_bind (leads_resetBus_tracks h₁) ?_ ?_
    · intro _ s₂ k₂ h₂
      refine leads_run_bind (leads_enumerate_tracks stranded h₂.honest
        h₂.sized) ?_ ?_
      · intro _ s₃ k₃ h₃
        refine (leads_trySetIdle h₃.honest h₃.sized False.elim).mono ?_
        rintro _ k₄ ⟨rfl, hstanding⟩
        exact h₃.standing hstanding
      · exact fun e s₃ k₃ h₃ => h₃
    · exact fun e s₂ k₂ h₂ => h₂

end Operations

/-! ## Histories -/

section Histories

variable {τ : Type} {clock : Clock τ} {settings : Settings}

/-- The operations with their place in the driver's protocol, packets and
requests of the caller's own apart.  A power switch leaves the core alone. -/
def Ordinary : Operation (Controller × τ) → Prop
  | .init power | .start power _ => ∀ k, Leads False power k fun _ k' => k' = k
  | .control _ _ | .transfer _ _ _ => False
  | _ => True

/-- Whether the device is stranded after an operation with the given reply. -/
def strandedAfter (operation : Operation (Controller × τ)) (reply : Reply)
    (before : Bool) : Bool :=
  match operation, reply with
  | .resetBus, .finished result | .enumerate, .finished result
  | .start _ _, .finished result => strandedBy result before
  | _, _ => before

/-- What can change between two operations: what is plugged into the port and
how the port behaves, and the faults of the device. -/
structure Conditions where
  attached : Bool
  stuck : Bool
  speed : Byte
  nakBudget : Nat
  stallRequest : Option Byte
  forced : Option Response
  honest : ∀ data, forced ≠ some (.ack data)

/-- The core and the device under other conditions. -/
def Conditions.impose (c : Conditions) (k : Controller) : Controller :=
  { k with
    port := { k.port with
      attached := c.attached, stuck := c.stuck, speed := c.speed }
    device := { k.device with
      nakBudget := c.nakBudget, stallRequest := c.stallRequest,
      forced := c.forced } }

/-- What a driver and its hardware can have come to: any number of operations
from the initial state and an honest device on, with any changes of the
conditions between them.  The last index says whether the device is stranded:
whether a bus reset has timed out since an operation that resets the bus last
succeeded. -/
inductive History (clock : Clock τ) (settings : Settings) :
    World Register (Controller × τ) → Driver → Bool → Prop where
  | start (w : World Register (Controller × τ)) :
    w.env.1.device.Honest → History clock settings w {} false
  | change {w : World Register (Controller × τ)} {driver : Driver}
      {stranded : Bool} (c : Conditions) :
    History clock settings w driver stranded →
    History clock settings { w with env := (c.impose w.env.1, w.env.2) } driver
      stranded
  | operate {w w' : World Register (Controller × τ)} {driver driver' : Driver}
      {stranded : Bool} {patience : Nat} {reply : Reply}
      (operation : Operation (Controller × τ)) :
    Ordinary operation → History clock settings w driver stranded →
    operation.perform (hostOn clock settings) driver patience w =
      .ok (reply, driver') w' →
    History clock settings w' driver' (strandedAfter operation reply stranded)

/-- One operation. -/
theorem tracks_step {driver : Driver} {k : Controller} {stranded : Bool}
    (operation : Operation (Controller × τ)) (ho : Ordinary operation)
    (h : Tracks driver.state k.device stranded) :
    Leads False (operation.perform (hostOn clock settings) driver) k
      fun r k' => Tracks r.2.state k'.device
        (strandedAfter operation r.1 stranded) := by
  cases operation with
  | control setup buffer => exact ho.elim
  | transfer x buffer length => exact ho.elim
  | version =>
    exact (leads_load (Q := fun _ k' => k = k') rfl).bind
      fun _ _ hk => .pure (hk ▸ h)
  | isConnected =>
    exact (leads_isConnected (Q := fun _ k' => k = k') rfl).bind
      fun _ _ hk => .pure (hk ▸ h)
  | awaitDevice timeout =>
    refine (leads_awaitDevice False.elim False.elim).bind ?_
    rintro found k' ⟨-, rfl⟩
    exact .pure h
  | init power =>
    refine (leads_init (s := driver.state)
      ((ho k).mono fun _ _ hk => ⟨hk, False.elim⟩) False.elim
      False.elim).bind ?_
    rintro ⟨r, s'⟩ k' ⟨hk', rfl, -⟩
    refine .pure ?_
    rw [hk'.device]
    exact h
  | resetBus =>
    refine (leads_resetBus_tracks h).bind ?_
    exact fun r k' hr => .pure hr
  | enumerate =>
    refine (leads_enumerate_tracks stranded h.honest h.sized).bind ?_
    exact fun r k' hr => .pure hr
  | start power timeout =>
    refine (leads_start_tracks h (ho k)).bind ?_
    exact fun r k' hr => .pure hr
  | setIdle =>
    refine (leads_setIdle h.honest h.sized False.elim).bind ?_
    rintro ⟨r, s'⟩ k' ⟨rfl, hstanding⟩
    exact .pure (h.standing hstanding)
  | setInterface interface setting =>
    refine (leads_setInterface h.honest h.sized interface setting).bind ?_
    rintro ⟨r, s'⟩ k' ⟨rfl, hstanding⟩
    exact .pure (h.standing hstanding)
  | readReport report =>
    refine (leads_readReport_tracks h report).bind ?_
    exact fun r k' hr => .pure hr
  | poll =>
    refine (leads_poll_tracks h driver.pad).bind ?_
    exact fun r k' hr => .pure hr

/-- Belief and device are related at every point of every history. -/
theorem History.tracks {w : World Register (Controller × τ)} {driver : Driver}
    {stranded : Bool} (h : History clock settings w driver stranded) :
    Tracks driver.state w.env.1.device stranded := by
  induction h with
  | start w hhonest => exact .unknown hhonest (.inl rfl) rfl
  | change c _ ih =>
    exact ⟨c.honest, ih.sized, ih.address, ih.reached, ih.lost⟩
  | operate operation ho _ hrun ih =>
    exact (tracks_step operation ho ih).of_run rfl hrun

/-- Whenever the driver takes the device to be enumerated, the device answers at
the address that the driver knows and is configured, just if no bus reset has
timed out since the last one that succeeded. -/
theorem agrees_iff_not_stranded {w : World Register (Controller × τ)}
    {driver : Driver} {stranded : Bool}
    (h : History clock settings w driver stranded)
    (he : driver.state.enumerated = true) :
    w.env.1.device.address = driver.state.address ∧
        w.env.1.device.configuration.isSome = true ↔
      stranded = false :=
  h.tracks.agrees_iff he

deriving instance DecidableEq for Moved, Reply

/-- After a fresh gamepad has been brought up, the driver's belief is right.  Its
port gets stuck, and the next bus reset times out: the driver takes the gamepad
to be enumerated still, and is wrong. -/
theorem gamepad_agrees :
    let clock := Bench.TickingClock.clock false
    ∃ w driver, History clock {} w driver false ∧
      driver.state.enumerated = true ∧
      (w.env.1.device.address = driver.state.address ∧
        w.env.1.device.configuration.isSome = true) ∧
    ∃ w' driver', History clock {} w' driver' true ∧
      driver'.state.enumerated = true ∧
      ¬ (w'.env.1.device.address = driver'.state.address ∧
        w'.env.1.device.configuration.isSome = true) := by
  intro clock
  let stuck : Conditions :=
    { attached := true, stuck := true, speed := 1, nakBudget := 0,
      stallRequest := none, forced := none, honest := fun _ => nofun }
  let host := hostOn clock {}
  have hhonest : freshBench.env.1.device.Honest := fun _ => nofun
  have hordinary : Ordinary (.start PowerSwitch.alwaysOn (.ofMillis 100) :
      Operation (Controller × Bench.TickingClock)) := fun _ => .pure rfl
  have hreturns : ((Operation.start PowerSwitch.alwaysOn
      (.ofMillis 100)).perform host {}).returns 4 freshBench
      (fun r w => decide (r.1 = .finished (.ok ()) ∧
          r.2.state.enumerated = true) &&
        (Operation.resetBus.perform host r.2).returns 60
          { w with env := (stuck.impose w.env.1, w.env.2) }
          fun r' _ => decide (
            r'.1 = .finished (.error .portEnableTimeout) ∧
              r'.2.state.enumerated = true)) = true := by
    decide +kernel
  obtain ⟨⟨reply, driver⟩, w, hstart, hreturns⟩ := Run.exists_of_returns hreturns
  obtain ⟨hfound, hreturns⟩ := Bool.and_eq_true_iff.1 hreturns
  obtain ⟨⟨reply', driver'⟩, w', hreset, hends⟩ := Run.exists_of_returns hreturns
  obtain ⟨rfl, henumerated⟩ := of_decide_eq_true hfound
  obtain ⟨rfl, henumerated'⟩ := of_decide_eq_true hends
  have hhistory := History.operate _ hordinary (.start freshBench hhonest) hstart
  have hhistory' := History.operate .resetBus trivial (.change stuck hhistory)
    hreset
  refine ⟨w, driver, hhistory, henumerated,
    (agrees_iff_not_stranded hhistory henumerated).2 rfl, ?_⟩
  refine ⟨w', driver', hhistory', henumerated', fun hagrees => ?_⟩
  exact nomatch (agrees_iff_not_stranded hhistory' henumerated').1 hagrees

end Histories

end UsbHost.Simulation
