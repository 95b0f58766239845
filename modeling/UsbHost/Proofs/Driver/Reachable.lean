import UsbHost.Driver.Operation
import UsbHost.Proofs.Host.Polling
import UsbHost.Proofs.Host.Running

/-!
# Reachable states

What a caller keeps for the driver comes from the driver itself: from the
initial state and the requests made so far, successful or not.

## Main results

* `performAll_keeps` — what every request keeps holds after any sequence of
  requests.
* `keeps_operation` — what every request keeps if a bus reset, an enumeration
  and the data toggle do.
* `Reachable.sound` — what is known about the device is consistent in every
  reachable state, and fits the registers it is written to.
-/

namespace UsbHost

variable {σ : Type} {host : Host σ}

/-! ## Requests and states -/

/-- The request, whatever becomes of it, leaves a state that satisfies `I`. -/
def Operation.Keeps (operation : Operation σ) (host : Host σ)
    (I : Link → Prop) : Prop :=
  ∀ driver w, I driver.state →
    (operation.perform host driver).Yields False w fun r _ => I r.2.state

/-- What every request keeps holds after any sequence of requests. -/
theorem performAll_keeps {I : Link → Prop}
    (h : ∀ operation : Operation σ, operation.Keeps host I)
    (operations : List (Operation σ)) :
    ∀ (driver : Driver) w, I driver.state →
      (driver.performAll host operations).Yields False w
        fun r _ => I r.2.state := by
  induction operations with
  | nil =>
    intro driver w hI
    exact .pure hI
  | cons operation rest ih =>
    intro driver w hI
    refine (h operation driver w hI).bind ?_
    intro r w' hr
    exact (ih r.2 w' hr).bind fun _ _ hI' => .pure hI'

/-- A state that some sequence of requests leads to, on some hardware. -/
def Link.Reachable (s : Link) : Prop :=
  ∃ (σ : Type) (host : Host σ) (operations : List (Operation σ))
    (patience : Nat) (w w' : World Register σ) (replies : List Reply)
    (driver : Driver),
    Driver.performAll host {} operations patience w =
        .ok (replies, driver) w' ∧
      driver.state = s

/-- Before any request, nothing is known. -/
theorem initial_reachable : Link.Reachable {} :=
  ⟨Unit,
    { core := ⟨⟨fun _ e => (0, e), fun _ _ e => e, id⟩,
        ⟨fun e => (.zero, e), none⟩⟩ },
    [], 0, ⟨(), []⟩, _, _, _, rfl, rfl⟩

/-- An invariant of the requests holds in every reachable state. -/
theorem Link.Reachable.of_keeps {s : Link} (hs : s.Reachable)
    {I : Link → Prop} (hstart : I {})
    (h : ∀ (σ : Type) (host : Host σ) (operation : Operation σ),
      operation.Keeps host I) : I s := by
  obtain ⟨σ, host, operations, patience, w, w', replies, driver, hr, rfl⟩ := hs
  exact (performAll_keeps (h σ host) operations {} w hstart).of_run hr

/-! ## What requests keep -/

section Keeps

open HostM

variable {I : Link → Prop}

theorem keeps_request (setup : SetupPacket) (buffer : List Byte) :
    Keeps I (host.request setup buffer) := by
  unfold Host.request
  refine Keeps.bind .get fun s => Keeps.bind (.lift _) fun moved => ?_
  cases moved.result with
  | ok count => exact .pure _
  | error e => exact .throw e

theorem keeps_init (power : PowerSwitch σ) : Keeps I (host.init power) := by
  unfold Host.init
  refine Keeps.bind (.lift _) fun granted => ?_
  cases granted with
  | error e => exact .throw _
  | ok u =>
    refine Keeps.bind (.lift _) fun _ => Keeps.bind (.lift _) fun id => ?_
    split
    · exact .lift _
    · exact .throw _

theorem keeps_resetBus (hreset : ∀ s speed, I s → I (s.afterReset speed)) :
    Keeps I host.resetBus := by
  unfold Host.resetBus
  refine Keeps.bind (.lift _) fun connected => ?_
  cases connected with
  | false => exact .throw _
  | true =>
    refine Keeps.bind (.lift _) fun _ => Keeps.bind (.lift _) fun _ => ?_
    refine Keeps.bind (.lift _) fun _ => Keeps.bind (.lift _) fun _ => ?_
    refine Keeps.bind (.lift _) fun _ => Keeps.bind (.lift _) fun _ => ?_
    refine Keeps.bind (.lift _) fun speed => ?_
    cases speed with
    | none => exact .throw _
    | some speed => exact .modify fun s hs => hreset s speed hs

theorem keeps_setIdle : Keeps I host.setIdle := by
  unfold Host.setIdle
  refine Keeps.bind .get fun s => ?_
  cases s.hid with
  | none => exact .throw _
  | some hid => exact Keeps.bind (keeps_request _ _) fun _ => .pure _

/-- Whether or not the device accepts that, it changes nothing. -/
theorem keeps_trySetIdle :
    Keeps I (tryCatch host.setIdle fun _ => pure () : HostM σ Unit) :=
  .tryCatch keeps_setIdle fun _ => .pure _

theorem keeps_setInterface (interface setting : Byte) :
    Keeps I (host.setInterface interface setting) := by
  unfold Host.setInterface
  refine Keeps.bind .get fun s => ?_
  split
  · exact Keeps.bind (keeps_request _ _) fun _ => .pure _
  · exact .throw _

theorem keeps_start (hreset : ∀ s speed, I s → I (s.afterReset speed))
    (henumerate : Keeps I host.enumerate) (power : PowerSwitch σ)
    (timeout : Duration) : Keeps I (host.start power timeout) := by
  unfold Host.start
  refine Keeps.bind (keeps_init power) fun _ => ?_
  refine Keeps.bind (.lift _) fun found => ?_
  cases found with
  | false => exact .throw _
  | true =>
    refine Keeps.bind (keeps_resetBus hreset) fun _ => ?_
    refine Keeps.bind henumerate fun _ => ?_
    exact keeps_trySetIdle

/-- An operation on the device, asked for by a caller. -/
theorem yields_onDevice {operation : HostM σ Unit} (h : Keeps I operation)
    (driver : Driver) (w : World Register σ) (hs : I driver.state) :
    (Operation.onDevice driver operation).Yields False w
      fun r _ => I r.2.state :=
  (h driver.state w hs).bind fun _ _ hr => .pure hr

/-- What such an operation has done when it comes back. -/
theorem run_of_onDevice {operation : HostM σ Unit} {driver : Driver} {n : Nat}
    {w w' : World Register σ} {r : Reply × Driver}
    (h : Operation.onDevice driver operation n w = .ok r w') :
    ∃ result, r.1 = .finished result ∧ r.2.pad = driver.pad ∧
      operation.run.run driver.state n w = .ok (result, r.2.state) w' := by
  obtain ⟨⟨result, s⟩, v, hrun, hpure⟩ := Run.bind_eq_ok.1 h
  cases hpure
  exact ⟨result, rfl, rfl, hrun⟩

/-- A request that does not touch the state. -/
theorem yields_reply {α : Type} (p : Run Register σ α) (reply : α → Reply)
    (driver : Driver) (w : World Register σ) (hs : I driver.state) :
    (do return (reply (← p), driver) :
      Run Register σ (Reply × Driver)).Yields False w
        fun r _ => I r.2.state :=
  .bind_any fun _ _ => .pure hs

/-- Only bus resets, enumerations and received reports change the state. -/
theorem keeps_operation (hreset : ∀ s speed, I s → I (s.afterReset speed))
    (henumerate : Keeps I host.enumerate)
    (htoggle : ∀ s, I s → I { s with toggle := !s.toggle })
    (operation : Operation σ) : operation.Keeps host I := by
  intro driver w hs
  cases operation with
  | version => exact yields_reply host.version .word driver w hs
  | isConnected => exact yields_reply host.isConnected .flag driver w hs
  | awaitDevice timeout =>
    exact yields_reply (host.awaitDevice timeout) .flag driver w hs
  | control setup buffer =>
    exact yields_reply (host.control driver.state setup buffer) .moved driver w
      hs
  | transfer x buffer length =>
    exact yields_reply (host.transfer driver.state x buffer length)
      .transferred driver w hs
  | init power => exact yields_onDevice (keeps_init power) driver w hs
  | resetBus => exact yields_onDevice (keeps_resetBus hreset) driver w hs
  | enumerate => exact yields_onDevice henumerate driver w hs
  | setIdle => exact yields_onDevice keeps_setIdle driver w hs
  | setInterface interface setting =>
    exact yields_onDevice (keeps_setInterface interface setting) driver w hs
  | start power timeout =>
    exact yields_onDevice (keeps_start hreset henumerate power timeout) driver w
      hs
  | readReport report =>
    exact (yields_readReport htoggle report hs w).bind fun _ _ hr => .pure hr
  | poll =>
    exact (yields_poll htoggle driver.pad hs w).bind fun _ _ hr => .pure hr

end Keeps

/-! ## The packet size of endpoint 0 -/

/-- Endpoint 0 has a legal packet size. -/
def Link.Sized (s : Link) : Prop :=
  s.ep0MaxPacket = 8 ∨ s.ep0MaxPacket = 16 ∨ s.ep0MaxPacket = 32 ∨
    s.ep0MaxPacket = 64

theorem Link.Sized.bounds {s : Link} (h : s.Sized) :
    8 ≤ s.ep0MaxPacket.toNat ∧ s.ep0MaxPacket.toNat ≤ 64 := by
  rcases h with h | h | h | h <;> rw [h] <;> decide

theorem Link.Sized.positive {s : Link} (h : s.Sized) :
    0 < s.ep0MaxPacket.toNat :=
  Nat.lt_of_lt_of_le (by decide) h.bounds.1

/-- Whatever a descriptor announces, the size taken from it is legal. -/
theorem ep0PacketSize_legal (announced : Byte) (s : Link) :
    Link.Sized { s with ep0MaxPacket := ep0PacketSize announced } := by
  unfold Link.Sized ep0PacketSize
  dsimp only
  split
  next h =>
    simp only [List.mem_cons, List.not_mem_nil, or_false] at h
    rcases h with rfl | rfl | rfl | rfl
    · exact .inl rfl
    · exact .inr (.inl rfl)
    · exact .inr (.inr (.inl rfl))
    · exact .inr (.inr (.inr rfl))
  next => exact .inl rfl

/-! ## The endpoint to poll -/

namespace HidEndpoint

/-- The number and the packet size of the endpoint fit into the registers of a
channel. -/
structure Fits (hid : HidEndpoint) : Prop where
  number : hid.number.toNat ≤ 15
  maxPacketSize : hid.maxPacketSize.toNat ≤ 2047

/-- What a descriptor says is cut to the width of the registers. -/
theorem fits_of_descriptor (d : EndpointDescriptor) (interface : Byte) :
    Fits { number := (EndpointAddress.number.get d.address).setWidth 8
           maxPacketSize := d.packetSize
           interface } := by
  constructor
  · have h := (EndpointAddress.number.get d.address).isLt
    rw [BitVec.toNat_setWidth]
    omega
  · show (d.maxPacketSize &&& 0x7FF).toNat ≤ 2047
    rw [BitVec.toNat_and]
    exact Nat.and_le_right

/-- Whichever endpoint a configuration describes, it fits. -/
theorem fits_of_ofRecords? {hid : HidEndpoint} {rs : List Record}
    {interface : Byte} (h : ofRecords? interface rs = some hid) :
    hid.Fits := by
  induction rs generalizing interface with
  | nil => exact nomatch h
  | cons r rest ih =>
    rw [ofRecords?] at h
    split at h
    · split at h
      · exact ih h
      · exact ih h
    · split at h
      next d _ =>
        split at h
        · cases h
          exact fits_of_descriptor d interface
        · exact ih h
      · exact ih h
    · exact ih h

end HidEndpoint

/-! ## Consistency -/

namespace Link

/-- What is known about the device is consistent: the address is one that the
driver gives, the sizes and the endpoint fit the registers, and only a device
that has been addressed and has an endpoint counts as enumerated. -/
structure Sound (s : Link) : Prop where
  address : s.address = 0 ∨ s.address = 1
  sized : s.Sized
  hid : ∀ hid, s.hid = some hid → hid.Fits
  enumerated : s.enumerated = true → s.address = 1 ∧ s.hid.isSome = true

/-- The state is consistent while an enumeration is under way. -/
structure Enumerating (s : Link) : Prop extends s.Sound where
  unfinished : s.enumerated = false

/-- The device has its address. -/
structure Addressed (s : Link) : Prop extends s.Enumerating where
  assigned : s.address = 1

/-- The endpoint has been found. -/
structure Located (s : Link) : Prop extends s.Addressed where
  found : s.hid.isSome = true

variable {s : Link}

theorem Sound.forget (h : s.Sound) :
    Enumerating { s with enumerated := false } :=
  ⟨⟨h.address, h.sized, h.hid, nofun⟩, rfl⟩

theorem Sound.afterReset (h : s.Sound) (speed : Speed) :
    Enumerating (s.afterReset speed) :=
  ⟨⟨.inl rfl, .inl rfl, h.hid, nofun⟩, rfl⟩

theorem Sound.toggled (h : s.Sound) : Sound { s with toggle := !s.toggle } :=
  ⟨h.address, h.sized, h.hid, h.enumerated⟩

theorem Enumerating.resize (h : s.Enumerating) (announced : Byte) :
    Enumerating { s with ep0MaxPacket := ep0PacketSize announced } :=
  ⟨⟨h.address, ep0PacketSize_legal announced s, h.hid, h.enumerated⟩,
    h.unfinished⟩

theorem Enumerating.assign (h : s.Enumerating) :
    Addressed { s with address := assignedAddress } := by
  have hs : ¬ s.enumerated = true := by simp [h.unfinished]
  exact ⟨⟨⟨.inr rfl, h.sized, h.hid, fun he => absurd he hs⟩, h.unfinished⟩,
    rfl⟩

theorem Addressed.locate (h : s.Addressed) {hid : HidEndpoint}
    (hfits : hid.Fits) :
    Located { s with hid := some hid, toggle := false } := by
  have hhid : ∀ hid', some hid = some hid' → hid'.Fits := by
    rintro _ ⟨⟩
    exact hfits
  exact ⟨⟨⟨⟨h.address, h.sized, hhid, fun _ => ⟨h.assigned, rfl⟩⟩,
    h.unfinished⟩, h.assigned⟩, rfl⟩

theorem Located.finish (h : s.Located) :
    Sound { s with enumerated := true } :=
  ⟨h.address, h.sized, h.hid, fun _ => ⟨h.assigned, h.found⟩⟩

end Link

section Sound

open HostM

/-- An enumeration leaves a consistent state wherever it ends. -/
theorem keeps_enumerate : Keeps Link.Sound host.enumerate := by
  have hreset : Keeps Link.Enumerating host.resetBus :=
    keeps_resetBus fun _ speed h => h.toSound.afterReset speed
  have henumerating : ∀ s, Link.Enumerating s → s.Sound := fun _ h => h.toSound
  have haddressed : ∀ s, Link.Addressed s → s.Sound := fun _ h => h.toSound
  unfold Host.enumerate
  refine Ends.modify_bind (fun _ h => h.forget) fun _ => ?_
  refine Ends.bind (keeps_request _ _) henumerating fun head => ?_
  refine Ends.modify_bind (fun _ h => h.resize _) fun _ => ?_
  refine Ends.bind hreset henumerating fun _ => ?_
  refine Ends.modify_bind (fun _ h => h.resize _) fun _ => ?_
  refine Ends.bind (.lift _) henumerating fun _ => ?_
  refine Ends.bind (keeps_request _ _) henumerating fun _ => ?_
  refine Ends.modify_bind (fun _ h => h.assign) fun _ => ?_
  refine Ends.bind (.lift _) haddressed fun _ => ?_
  refine Ends.bind (keeps_request _ _) haddressed fun _ => ?_
  refine Ends.bind (keeps_request _ _) haddressed fun read => ?_
  refine Ends.bind (.lift _) haddressed fun configuration => ?_
  cases h : HidEndpoint.find? configuration with
  | none => exact .throw _ haddressed
  | some hid =>
    have hfits : hid.Fits := HidEndpoint.fits_of_ofRecords? h
    refine Ends.modify_bind (fun _ h => h.locate hfits) fun _ => ?_
    refine Ends.bind (keeps_request _ _) (fun _ h => h.toSound) fun _ => ?_
    exact .modify fun _ h => h.finish

/-- Every request keeps the state consistent. -/
theorem keeps_sound (operation : Operation σ) :
    operation.Keeps host Link.Sound :=
  keeps_operation (fun _ speed h => (h.afterReset speed).toSound)
    keeps_enumerate (fun _ h => h.toggled) operation

end Sound

theorem initial_sound : Link.Sound {} :=
  ⟨.inl rfl, .inl rfl, nofun, nofun⟩

/-- What is known about the device is consistent in every reachable state. -/
theorem Link.Reachable.sound {s : Link} (hs : s.Reachable) : s.Sound :=
  hs.of_keeps initial_sound fun _ _ operation => keeps_sound operation

/-- Endpoint 0 has a legal packet size in every reachable state. -/
theorem Link.Reachable.sized {s : Link} (hs : s.Reachable) : s.Sized :=
  hs.sound.sized

end UsbHost
