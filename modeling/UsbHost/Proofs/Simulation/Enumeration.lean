import UsbHost.Bench.Environment
import UsbHost.Host.Enumeration
import UsbHost.Proofs.Driver.Reachable
import UsbHost.Proofs.Simulation.Bringup
import UsbHost.Proofs.Simulation.Requests
import UsbHost.Proofs.Simulation.Standing

/-!
# Enumeration on the simulated core

From power-on to an enumerated device, on a core that has a device without
faults on its port.  The core and the device are followed through the requests
by one relation, `Ready`; what changes from request to request is only where the
device answers and whether it is configured.

## Main results

* `leads_readDescriptor`, `leads_command` — the two kinds of requests.
* `leads_enumerate`, `leads_start` — what enumeration and bring-up come to.
-/

namespace UsbHost.Simulation

/-! ## The device through the requests -/

/-- The same device, with no more refusals than before. -/
structure Device.SameMake (d d' : Device) : Prop where
  packetSize : d'.packetSize = d.packetSize
  descriptor : d'.descriptor = d.descriptor
  configurationDescriptor :
    d'.configurationDescriptor = d.configurationDescriptor
  stallRequest : d'.stallRequest = d.stallRequest
  forced : d'.forced = d.forced
  nakBudget : d'.nakBudget ≤ d.nakBudget

namespace Device.SameMake

variable {d d' d'' : Device}

theorem refl (d : Device) : d.SameMake d :=
  ⟨rfl, rfl, rfl, rfl, rfl, Nat.le_refl _⟩

theorem trans (h : d.SameMake d') (h' : d'.SameMake d'') : d.SameMake d'' :=
  ⟨h'.packetSize.trans h.packetSize, h'.descriptor.trans h.descriptor,
    h'.configurationDescriptor.trans h.configurationDescriptor,
    h'.stallRequest.trans h.stallRequest, h'.forced.trans h.forced,
    Nat.le_trans h'.nakBudget h.nakBudget⟩

theorem of_busReset (d : Device) : d.SameMake d.busReset :=
  ⟨rfl, rfl, rfl, rfl, rfl, Nat.le_refl _⟩

theorem of_ended (d : Device) : d.SameMake { d.ready with control := none } :=
  ⟨rfl, rfl, rfl, rfl, rfl, Nat.zero_le _⟩

theorem of_apply (d : Device) (setup : SetupPacket) :
    d.SameMake (d.apply setup) := by
  unfold apply
  dsimp only
  split
  · exact ⟨rfl, rfl, rfl, rfl, rfl, Nat.le_refl _⟩
  · split
    · exact ⟨rfl, rfl, rfl, rfl, rfl, Nat.le_refl _⟩
    · split
      · exact ⟨rfl, rfl, rfl, rfl, rfl, Nat.le_refl _⟩
      · exact refl d

/-- What a device answers is a matter of its make. -/
theorem answer?_eq (h : d.SameMake d') (setup : SetupPacket) :
    d'.answer? setup = d.answer? setup := by
  unfold answer?
  rw [h.descriptor, h.configurationDescriptor]

end Device.SameMake

/-- `k` is `k₀` with its device in another state, as far as requests are
concerned. -/
structure Ready (k₀ k : Controller) : Prop where
  wired : Wired k₀ k.device k
  make : k₀.device.SameMake k.device

namespace Ready

variable {k₀ k k' : Controller} {d : Device}

theorem refl (k : Controller) : Ready k k := ⟨.refl k, .refl k.device⟩

theorem wire (h : Ready k₀ k) (hk : Wired k d k')
    (hd : k.device.SameMake d) : Ready k₀ k' := by
  have hdevice := hk.device
  subst hdevice
  exact ⟨h.wired.trans hk, h.make.trans hd⟩

end Ready

section Enumerate

variable {τ : Type} {clock : Clock τ} {settings : Settings}
  {k₀ k : Controller} {s : Link} {setup : SetupPacket} {buffer : List Byte}

/-- The packet size of endpoint 0 that the device announces. -/
def Device.ep0Size (d : Device) : Half := ep0PacketSize d.descriptor[7]

/-- What bring-up needs: a core that is idle and says who it is, room for a
SETUP packet, FIFO sizes that fit, and a device on a port that comes up.  The
device stalls nothing but the request to report on change only, runs out of
refusals in time, and its packets are as large as its descriptor says. -/
structure Startable (clock : Clock τ) (settings : Settings) (k : Controller) :
    Prop where
  delays : (hostOn clock settings).core.DelaysReturn
  known : isDwc2Id k.coreId = true
  idle : k.Idle
  empty : k.rxStatus = [] ∧ k.rxFifo = []
  space : 2 ≤ (NpTxStatus.spaceAvailable.get ⟨k.npTxStatus⟩).toNat
  memory : settings.rxFifoWords.toNat + settings.npTxFifoWords.toNat ≤ 65535
  attached : k.port.attached = true
  free : k.port.stuck = false
  unforced : k.device.forced = none
  stalls : k.device.stallRequest = none ∨
    k.device.stallRequest = some SetupPacket.setIdleCode
  patient : k.device.nakBudget < settings.nakRetryLimit
  packets : k.device.ep0Size.toNat ≤ k.device.packetSize

namespace Startable

variable (h : Startable clock settings k₀) (hk : Ready k₀ k)
include h hk

theorem clean : k.Clean .control := by
  refine hk.wired.clean ⟨?_, ?_⟩
  · unfold Controller.InStep
    rw [h.empty.1, h.empty.2]
    rfl
  · rw [h.empty.1]
    exact fun _ hentry => nomatch hentry

theorem forced_eq : k.device.forced = none :=
  hk.make.forced.trans h.unforced

theorem reaches
    (ha : k.device.address = (s.address.setWidth 7).setWidth 8) :
    Reaches clock settings s k := by
  refine ⟨h.delays, ha, Nat.lt_of_le_of_lt hk.make.nakBudget h.patient, ?_⟩
  rw [hk.wired.txSpace_eq]
  exact h.space

/-- No request of enumeration is stalled. -/
theorem not_stalled {response : List Byte}
    (hanswer : k₀.device.answer? setup = some response)
    (hrequest : SetupPacket.request.get setup ≠ SetupPacket.setIdleCode) :
    (k.device.begun setup).stalled = false := by
  have hknown : (k.device.answer? setup).isNone = false := by
    rw [hk.make.answer?_eq, hanswer]
    rfl
  have hstall : k.device.stallRequest ≠
      some (SetupPacket.request.get setup) := by
    rw [hk.make.stallRequest]
    intro hs
    rcases h.stalls with hnone | hidle
    · rw [hnone] at hs
      exact nomatch hs
    · rw [hidle] at hs
      exact hrequest (Option.some.inj hs).symm
  unfold Device.begun
  rw [hknown, decide_eq_false hstall]
  rfl

end Startable

/-! ## Requests -/

/-- A descriptor is read as far as there is room for it. -/
theorem leads_readDescriptor (h : Startable clock settings k₀)
    (hk : Ready k₀ k) {kind : DescriptorType} {size : Nat}
    {response : List Byte} (hs : s.Sized)
    (hp : s.ep0MaxPacket.toNat ≤ k₀.device.packetSize)
    (ha : k.device.address = (s.address.setWidth 7).setWidth 8)
    (hsize : 0 < size ∧ size < 65536)
    (hanswer : k₀.device.answer?
      (.getDescriptor kind 0 (BitVec.ofNat 16 size)) = some response) :
    Leads True (((hostOn clock settings).readDescriptor kind size).run.run s) k
      fun r k' =>
        let n := min size response.length
        r = (.ok (n, response.take n ++ (List.replicate size 0).drop n), s) ∧
          Ready k₀ k' ∧ k'.device.address = k.device.address ∧
          k'.device.configuration = k.device.configuration := by
  have hbounds := hs.bounds
  have hlength : (SetupPacket.length.get (.getDescriptor kind 0
      (BitVec.ofNat 16 size))).toNat = size := by
    rw [SetupPacket.getDescriptor, Device.get_length, BitVec.toNat_ofNat,
      Nat.mod_eq_of_lt hsize.2]
  have hdirection : SetupPacket.direction.get (.getDescriptor kind 0
      (BitVec.ofNat 16 size)) = .toHost := Device.get_direction ..
  have hrequest : SetupPacket.request.get (.getDescriptor kind 0
      (BitVec.ofNat 16 size)) ≠ SetupPacket.setIdleCode := by
    rw [SetupPacket.getDescriptor, Device.get_request]
    decide
  have htotal : min (SetupPacket.length.get (.getDescriptor kind 0
      (BitVec.ofNat 16 size))).toNat (List.replicate size (0 : Byte)).length =
      size := by
    rw [hlength, List.length_replicate, Nat.min_self]
  refine (leads_request (leads_control_in (h.forced_eq hk) (h.clean hk)
    ⟨hbounds.1, by omega⟩ hdirection htotal hsize.1 fun _ =>
      ⟨h.reaches hk ha, h.not_stalled hk hanswer hrequest⟩)).mono ?_
  rintro r k' ⟨moved, ⟨hfalse, -⟩ | ⟨response', hanswer', rfl, hk'⟩, rfl⟩
  · exact absurd trivial hfalse
  · rw [hk.make.answer?_eq, hanswer] at hanswer'
    cases hanswer'
    rw [Device.apply_getDescriptor] at hk'
    have hn : receivable size s.ep0MaxPacket.toNat k.device.packetSize
        response.length = min size response.length := by
      rw [receivable, if_pos]
      rw [hk.make.packetSize]
      exact hp
    refine ⟨?_, hk.wire (.of_became hk') (.of_ended _), ?_, ?_⟩
    · rw [hn]
      rfl
    · rw [hk'.device]
      rfl
    · rw [hk'.device]
      rfl

/-- A request without data is applied. -/
theorem leads_command (h : Startable clock settings k₀) (hk : Ready k₀ k)
    (hs : s.Sized) (ha : k.device.address = (s.address.setWidth 7).setWidth 8)
    (hl : SetupPacket.length.get setup = 0)
    (hrequest : SetupPacket.request.get setup ≠ SetupPacket.setIdleCode)
    {response : List Byte} (hanswer : k₀.device.answer? setup = some response) :
    Leads True (((hostOn clock settings).request setup []).run.run s) k
      fun r k' => r = (.ok (0, []), s) ∧ Ready k₀ k' ∧
        k'.device = { k.device.ready with control := none }.apply setup := by
  refine (leads_request (leads_control_none (h.forced_eq hk) (h.clean hk)
    hs.bounds.1 hl fun _ =>
      ⟨h.reaches hk ha, h.not_stalled hk hanswer hrequest⟩)).mono ?_
  rintro r k' ⟨moved, ⟨hfalse, -⟩ | ⟨rfl, -, hk'⟩, rfl⟩
  · exact absurd trivial hfalse
  · refine ⟨rfl, hk.wire (.of_became hk') ?_, hk'.device⟩
    exact (Device.SameMake.of_ended _).trans (.of_apply _ _)

/-- A bus reset succeeds and brings the device to its default state. -/
theorem leads_restart (h : Startable clock settings k₀) (hk : Ready k₀ k) :
    Leads True ((hostOn clock settings).resetBus.run.run s) k fun r k' =>
      r = (.ok (), s.afterReset k₀.port.reportedSpeed) ∧ Ready k₀ k' ∧
        k'.device.address = 0 ∧ k'.device.configuration = none := by
  have hfree : k.port.stuck = false := hk.wired.port.stuck.trans h.free
  have hspeed : k.port.reportedSpeed = k₀.port.reportedSpeed := by
    unfold Port.reportedSpeed
    rw [hk.wired.port.speed]
  refine (leads_resetBus (fun _ => h.delays) fun _ => hfree).mono ?_
  rintro r k' (⟨ha, -, -⟩ | ⟨-, hk', rfl⟩)
  · rw [hk.wired.port.attached, h.attached] at ha
    exact nomatch ha
  · rw [hfree, hspeed]
    refine ⟨rfl, hk.wire (.of_plugged hk') (.of_busReset _), ?_, ?_⟩
    · rw [hk'.device_eq]
      rfl
    · rw [hk'.device_eq]
      rfl

/-- Byte 7 of what is read first is that of the descriptor. -/
theorem byteAt_head (descriptor : Vector Byte 18) (rest : List Byte) :
    byteAt (descriptor.toList.take (min 8 descriptor.toList.length) ++ rest) 7 =
      descriptor[7] := by
  have hlength : descriptor.toList.length = 18 := descriptor.length_toList
  unfold byteAt
  rw [hlength, List.getElem?_append_left (by rw [List.length_take]; omega),
    List.getElem?_take_of_lt (by decide), List.getElem?_eq_getElem (by omega),
    Vector.getElem_toList]
  rfl

/-- What has been read is in front of the buffer. -/
theorem read_front (response rest : List Byte) (size : Nat) :
    let n := min size response.length
    n ≤ (response.take n ++ rest).length ∧
      ((response.take n ++ rest).take n).drop 0 = response.take size := by
  intro n
  have hn : n ≤ response.length := Nat.min_le_right _ _
  have hlength : (response.take n).length = n := List.length_take_of_le hn
  constructor
  · rw [List.length_append, hlength]
    exact Nat.le_add_right _ _
  · rw [List.drop_zero, List.take_left' hlength, List.take_eq_take_iff]
    show min (min size response.length) response.length = _
    omega

/-- What is known of the device once it has its address. -/
def addressed (k₀ : Controller) (s : Link) : Link :=
  { s with
    address := assignedAddress
    ep0MaxPacket := k₀.device.ep0Size
    enumerated := false
    speed := k₀.port.reportedSpeed }

/-- Enumeration gives the device its address, and configures it if it has an
endpoint that can be polled. -/
theorem leads_enumerate (h : Startable clock settings k₀) (hk : Ready k₀ k)
    (hs : s.address = 0 ∧ s.ep0MaxPacket = 8) (ha : k.device.address = 0) :
    Leads True ((hostOn clock settings).enumerate.run.run s) k fun r k' =>
      let read := k₀.device.configurationDescriptor.take 64
      Ready k₀ k' ∧ k'.device.address = assignedAddress ∧
      match HidEndpoint.find? read with
      | some hid =>
        r = (.ok (), { addressed k₀ s with
          hid := some hid, toggle := false, enumerated := true }) ∧
        k'.device.configuration = some (configurationValue read)
      | none =>
        r = (.error .noInterruptEndpoint, addressed k₀ s) ∧
        k'.device.configuration = none := by
  unfold Host.enumerate
  refine leads_run_modify ?_
  have hm : Link.Sized (addressed k₀ s) :=
    ep0PacketSize_legal k₀.device.descriptor[7] s
  have hfits : 8 ≤ k₀.device.packetSize := Nat.le_trans hm.bounds.1 h.packets
  -- The first bytes of the device descriptor come in packets of eight bytes.
  refine leads_run_ok (leads_readDescriptor h hk (.inl hs.2) ?_ ?_
    (by decide) (k₀.device.answer?_getDescriptor _).1) ?_
  · show s.ep0MaxPacket.toNat ≤ _
    rw [hs.2]
    exact hfits
  · show k.device.address = (s.address.setWidth 7).setWidth 8
    rw [ha, hs.1]
    rfl
  rintro k₁ ⟨hk₁, -⟩
  dsimp only
  rw [byteAt_head]
  refine leads_run_modify (leads_run_ok (leads_restart h hk₁) ?_)
  rintro k₂ ⟨hk₂, ha₂, hc₂⟩
  refine leads_run_modify (leads_run_lift (leads_delay
    (Q := fun _ k' => k₂ = k') (fun _ => h.delays) rfl) ?_)
  rintro _ _ rfl
  -- From here on the packets have the size that the device announces.
  refine leads_run_ok (leads_command h hk₂ hm ha₂
    (Device.get_length ..) (by decide)
    (k₀.device.answer?_setAddress assignedAddress)) ?_
  rintro k₃ ⟨hk₃, hdevice₃⟩
  rw [Device.apply_setAddress] at hdevice₃
  have ha₃ : k₃.device.address = assignedAddress := by rw [hdevice₃]
  have hc₃ : k₃.device.configuration = none := by
    rw [hdevice₃]
    exact hc₂
  refine leads_run_modify ?_
  show Leads True (StateT.run (ExceptT.run _) (addressed k₀ s)) k₃ _
  refine leads_run_lift (leads_delay
    (Q := fun _ k' => k₃ = k') (fun _ => h.delays) rfl) ?_
  rintro _ _ rfl
  refine leads_run_ok (leads_readDescriptor h hk₃ hm h.packets ha₃
    (by decide) (k₀.device.answer?_getDescriptor _).1) ?_
  rintro k₄ ⟨hk₄, ha₄, hc₄⟩
  refine leads_run_ok (leads_readDescriptor h hk₄ hm h.packets (ha₄.trans ha₃)
    (by decide) (k₀.device.answer?_getDescriptor _).2) ?_
  rintro k₅ ⟨hk₅, ha₅, hc₅⟩
  have ha : k₅.device.address = assignedAddress := ha₅.trans (ha₄.trans ha₃)
  obtain ⟨hlength, hfront⟩ := read_front k₀.device.configurationDescriptor
    ((List.replicate 64 0).drop
      (min 64 k₀.device.configurationDescriptor.length)) 64
  refine leads_run_lift (leads_slice (Q := fun read k' => k₅ = k' ∧
    read = k₀.device.configurationDescriptor.take 64)
    (fun _ => ⟨Nat.zero_le _, hlength⟩) fun _ => ⟨rfl, hfront⟩) ?_
  rintro _ _ ⟨rfl, rfl⟩
  cases HidEndpoint.find? (k₀.device.configurationDescriptor.take 64) with
  | none =>
    refine leads_run_throw ⟨hk₅, ha, rfl, ?_⟩
    exact hc₅.trans (hc₄.trans hc₃)
  | some hid =>
    have hrequest : ∀ value, SetupPacket.request.get
        (.setConfiguration value) ≠ SetupPacket.setIdleCode := by
      intro value
      rw [SetupPacket.setConfiguration, Device.get_request]
      decide
    refine leads_run_modify (leads_run_ok (leads_command h hk₅ hm ha
      (Device.get_length ..) (hrequest _)
      (k₀.device.answer?_setConfiguration _)) ?_)
    rintro k₆ ⟨hk₆, hdevice₆⟩
    rw [Device.apply_setConfiguration] at hdevice₆
    refine .pure ⟨hk₆, ?_, rfl, ?_⟩
    · rw [hdevice₆]
      exact ha
    · rw [hdevice₆]

/-! ## Bring-up -/

/-- Whether or not the device accepts it, the request to report on change only
changes nothing of what matters here. -/
theorem leads_trySetIdle_ready (h : Startable clock settings k₀) (hk : Ready k₀ k)
    (hs : s.Sized)
    (ha : k.device.address = (s.address.setWidth 7).setWidth 8) :
    Leads True ((tryCatch (hostOn clock settings).setIdle
        fun _ => pure ()).run.run s) k fun r k' =>
      r = (.ok (), s) ∧ k.device.SameStanding k'.device := by
  have hhonest : k.device.Honest := by
    intro data
    rw [h.forced_eq hk]
    exact nofun
  have hspace : 2 ≤ k.txSpace := by
    rw [hk.wired.txSpace_eq]
    exact h.space
  exact leads_trySetIdle hhonest hs fun _ =>
    ⟨h.delays, h.forced_eq hk, ha, hspace⟩

/-- Bring-up gives the device its address, and configures it if it has an
endpoint that can be polled. -/
theorem leads_start {power : PowerSwitch (Controller × τ)}
    (timeout : Duration) (h : Startable clock settings k)
    (hpower : Leads True power k fun r k' => k' = k ∧ r = .ok ()) :
    Leads True (((hostOn clock settings).start power timeout).run.run s) k
      fun r k' =>
        let read := k.device.configurationDescriptor.take 64
        k'.device.address = assignedAddress ∧
        match HidEndpoint.find? read with
        | some hid =>
          r = (.ok (), { addressed k s with
            hid := some hid, toggle := false, enumerated := true }) ∧
          k'.device.configuration = some (configurationValue read)
        | none =>
          r = (.error .noInterruptEndpoint, addressed k s) ∧
          k'.device.configuration = none := by
  have hmemory := h.memory
  have hinit : Leads True (((hostOn clock settings).init power).run.run s) k
      fun r k' => r = (.ok (), s) ∧ Wired k k.device k' := by
    refine (leads_init (hpower.mono fun r k' hr => ⟨hr.1, fun _ => hr.2⟩)
      (fun _ => h.delays) fun _ => ⟨h.known, h.idle, by omega⟩).mono ?_
    rintro ⟨r, s'⟩ k' ⟨hk', rfl, hr⟩
    exact ⟨congrArg (·, s') (hr.resolve_right fun h => h.1 trivial), hk'⟩
  have hm : Link.Sized (addressed k s) :=
    ep0PacketSize_legal k.device.descriptor[7] s
  unfold Host.start
  refine leads_run_ok hinit fun k₁ hk₁ => ?_
  have hr₁ : Ready k k₁ := (Ready.refl k).wire hk₁ (.refl _)
  have hattached : k₁.port.attached = true :=
    hk₁.port.attached.trans h.attached
  refine leads_run_lift (leads_awaitDevice (fun _ => h.delays)
    fun _ => hattached) ?_
  rintro _ k₁ ⟨rfl, rfl⟩
  rw [hattached, if_neg (by decide)]
  refine leads_run_ok (leads_restart h hr₁) ?_
  rintro k₂ ⟨hk₂, ha₂, -⟩
  refine leads_run_bind (leads_enumerate h hk₂ ⟨rfl, rfl⟩ ha₂) ?_ ?_
  · rintro _ s₃ k₃ ⟨hk₃, ha₃, hfound⟩
    cases hfind : HidEndpoint.find?
        (k.device.configurationDescriptor.take 64) with
    | none =>
      rw [hfind] at hfound
      exact nomatch hfound.1
    | some hid =>
      rw [hfind] at hfound
      obtain ⟨hr, hc₃⟩ := hfound
      cases hr
      refine (leads_trySetIdle_ready (s := { addressed k s with
        hid := some hid, toggle := false, enumerated := true })
        h hk₃ hm ha₃).mono ?_
      rintro r k₄ ⟨rfl, hstanding⟩
      refine ⟨hstanding.address.trans ha₃, ?_⟩
      rw [hfind]
      exact ⟨rfl, hstanding.configuration.trans hc₃⟩
  · rintro e s₃ k₃ ⟨-, ha₃, hfound⟩
    refine ⟨ha₃, ?_⟩
    cases hfind : HidEndpoint.find?
        (k.device.configurationDescriptor.take 64) with
    | none =>
      rw [hfind] at hfound
      exact hfound
    | some hid =>
      rw [hfind] at hfound
      exact nomatch hfound.1

end Enumerate

/-! ## A fresh core -/

/-- A core fresh from power-on with a gamepad on its port, and a clock that has
just been started. -/
def freshBench : World Register (Controller × Bench.TickingClock) :=
  ⟨({}, {}), []⟩

theorem freshBench_startable :
    Startable (Bench.TickingClock.clock false) {} freshBench.env.1 where
  delays := Machine.delaysReturn_of_skip _ rfl
  known := by decide
  idle := ⟨by decide, by decide, by decide, by decide⟩
  empty := ⟨rfl, rfl⟩
  space := by decide
  memory := by decide
  attached := rfl
  free := rfl
  unforced := rfl
  stalls := .inl rfl
  patient := by decide
  packets := by decide

end UsbHost.Simulation
