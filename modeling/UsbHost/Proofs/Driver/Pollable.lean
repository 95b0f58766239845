import UsbHost.Proofs.Driver.DataToggle
import UsbHost.Proofs.Driver.EnumerationScript
import UsbHost.Proofs.Driver.Gates

/-!
# Polling what has been found

What counts as an endpoint to poll is decided twice: by the search of the
configuration, and by the guard of a poll.  The search takes any interrupt-IN
endpoint, whatever its number; the guard refuses number 0.  So an enumeration
can succeed with an endpoint that is never polled.  Every other endpoint that is
found is polled as the configuration describes it.

## Main results

* `Operation.Enumerates.follows` — what an operation that enumerates has done
  when it succeeds.
* `Link.Enumerated.asks` — a poll asks just the endpoint that has been found.
* `Link.Enumerated.refuses` — it does not if the number of the endpoint is 0.
* `found_endpoint_polled` — both, after every successful enumeration.
-/

namespace UsbHost

open Run Enumeration

variable {σ : Type} {host : Host σ}

/-! ## Successful enumerations -/

/-- What is known about a device that has been enumerated with the given
findings. -/
structure Link.Enumerated (s : Link) (f : Findings) : Prop where
  enumerated : s.enumerated = true
  address : s.address = 1
  hid : s.hid = some f.endpoint
  found : HidEndpoint.find? f.configuration = some f.endpoint

/-- The operation enumerates the device. -/
def Operation.Enumerates : Operation σ → Prop
  | .enumerate | .start _ _ => True
  | _ => False

section Success

variable {settings : Settings} {s : Link} {f : Findings} {n : Nat}
  {w w' : World Register σ}

/-- A script that has been followed to its end has found the endpoint. -/
theorem enumerated_of_follows {known : Link}
    (h : Follows host { s with enumerated := false } (script settings s f) w
      (.ok (), known) w') :
    known.Enumerated f := by
  cases h with
  | complete htaken =>
    have hsearch : (Step.search f.configuration f.endpoint,
        { s with
          enumerated := false
          ep0MaxPacket := f.ep0MaxPacket
          speed := f.speed
          address := 1
          hid := some f.endpoint
          toggle := false }) ∈ script settings s f := by
      simp [script]
    obtain ⟨_, _, _, hfound, -⟩ := htaken.succeeded hsearch
    rw [htaken.known_eq]
    exact ⟨rfl, rfl, rfl, hfound⟩

/-- What has been enumerated at the end of a start is what is known after
it. -/
theorem enumerate_of_start {power : PowerSwitch σ} {timeout : Duration}
    {known : Link}
    (h : (host.start power timeout).run.run s n w = .ok (.ok (), known) w') :
    ∃ s₁ v v', host.enumerate.run.run s₁ n v = .ok (.ok (), known) v' := by
  rw [Host.start_eq, HostM.run_bind] at h
  obtain ⟨⟨discovered, s₁⟩, v, -, hrest⟩ := bind_eq_ok.1 h
  cases discovered with
  | error e => exact nomatch hrest
  | ok _ =>
    dsimp only at hrest
    rw [HostM.run_bind] at hrest
    obtain ⟨⟨enumerated, s₂⟩, v', henumerate, hrest⟩ := bind_eq_ok.1 hrest
    cases enumerated with
    | error e => exact nomatch hrest
    | ok _ =>
      have hidle : HostM.Keeps (fun s => s = s₂)
          (tryCatch host.setIdle fun _ => pure ()) := keeps_trySetIdle
      have hknown : known = s₂ := (hidle s₂ v' rfl).of_run hrest
      exact ⟨s₁, v, v', hknown ▸ henumerate⟩

/-- An operation that enumerates has followed the script if it succeeds. -/
theorem Operation.Enumerates.follows {operation : Operation σ}
    (ho : operation.Enumerates) {driver driver' : Driver}
    (h : operation.perform host driver n w =
      .ok (.finished (.ok ()), driver') w') :
    ∃ s f v v', Follows host { s with enumerated := false }
      (script host.settings s f) v (.ok (), driver'.state) v' := by
  have hdevice : ∀ {p : HostM σ Unit},
      Operation.onDevice driver p n w =
        .ok (.finished (.ok ()), driver') w' →
      p.run.run driver.state n w = .ok (.ok (), driver'.state) w' := by
    intro p hrun
    obtain ⟨result, hfinished, -, hp⟩ := run_of_onDevice hrun
    cases hfinished
    exact hp
  have hfollows : ∀ {s v v'},
      host.enumerate.run.run s n v = .ok (.ok (), driver'.state) v' →
      ∃ f, Follows host { s with enumerated := false }
        (script host.settings s f) v (.ok (), driver'.state) v' :=
    fun {s v v'} hrun => (continues_enumerate host s v).ok n _ v' hrun
  cases operation with
  | enumerate =>
    obtain ⟨f, hf⟩ := hfollows (hdevice h)
    exact ⟨_, f, _, _, hf⟩
  | start power timeout =>
    obtain ⟨s, v, v', hrun⟩ := enumerate_of_start (hdevice h)
    obtain ⟨f, hf⟩ := hfollows hrun
    exact ⟨s, f, v, v', hf⟩
  | _ => exact ho.elim

end Success

/-! ## Polls -/

/-- Channel 1 has been enabled for a packet from the endpoint of the device at
address 1. -/
def HidEndpoint.Asked (hid : HidEndpoint) (events : List (Event Register)) :
    Prop :=
  ∃ chars : Word,
    .write (.channel .interrupt .characteristics) chars ∈ events ∧
    ChannelCharacteristics.enable.get ⟨chars⟩ = true ∧
    ChannelCharacteristics.direction.get ⟨chars⟩ = .toHost ∧
    ChannelCharacteristics.transferType.get ⟨chars⟩ = .interrupt ∧
    ChannelCharacteristics.deviceAddress.get ⟨chars⟩ = 1 ∧
    (ChannelCharacteristics.endpoint.get ⟨chars⟩).toNat = hid.number.toNat ∧
    (ChannelCharacteristics.maxPacketSize.get ⟨chars⟩).toNat =
      hid.maxPacketSize.toNat

namespace Link.Enumerated

variable {s : Link} {f : Findings} (h : s.Enumerated f)

include h

/-- The guard of a poll looks at the number of the endpoint. -/
theorem pollable?_eq :
    s.pollable? = if f.endpoint.number = 0 then none else some f.endpoint := by
  unfold Link.pollable?
  rw [h.hid, h.enumerated]
  simp [Option.filter]

/-- An endpoint with the number 0 is not polled. -/
theorem refuses (hzero : f.endpoint.number = 0) (host : Host σ)
    (report : List Byte) (n : Nat) (w : World Register σ) :
    (host.readReport report).run s n w =
      .ok (⟨.error .notEnumerated, report⟩, s) w := by
  rw [Host.run_readReport, h.pollable?_eq, if_pos hzero]
  rfl

/-- The words of a poll ask the endpoint that has been found. -/
theorem asked (hnumber : f.endpoint.number ≠ 0) {room : Nat}
    {events : List (Event Register)}
    (hissued : (Host.pollExchange s f.endpoint).Issued s room events) :
    f.endpoint.Asked events := by
  obtain ⟨-, oddFrame, hwritten⟩ := hissued
  obtain ⟨henable, -, haddress, hendpoint, hdirection, htype, hsize, -⟩ :=
    characteristics_fields (Host.pollExchange s f.endpoint) s oddFrame
  have hfits : f.endpoint.Fits := HidEndpoint.fits_of_ofRecords? h.found
  have hpacket : s.packetSizeOf f.endpoint.number = f.endpoint.maxPacketSize := by
    unfold Link.packetSizeOf
    rw [if_neg hnumber, h.hid]
    rfl
  refine ⟨_, hwritten, henable, hdirection, htype, ?_, ?_, ?_⟩
  · rw [h.address] at haddress
    exact haddress
  · refine (congrArg BitVec.toNat hendpoint).trans ?_
    rw [BitVec.toNat_setWidth]
    exact Nat.mod_eq_of_lt (Nat.lt_succ_of_le hfits.number)
  · refine (congrArg BitVec.toNat hsize).trans ?_
    show ((s.packetSizeOf f.endpoint.number).setWidth 11).toNat = _
    rw [hpacket, BitVec.toNat_setWidth]
    exact Nat.mod_eq_of_lt (Nat.lt_succ_of_le hfits.maxPacketSize)

/-- Any other endpoint is polled: an exchange begins on channel 1, and if it
comes back, the endpoint has been asked. -/
theorem asks (hnumber : f.endpoint.number ≠ 0) (host : Host σ)
    (report : List Byte) (n : Nat) (w : World Register σ) :
    let read := (host.readReport report).run s
    Begun .interrupt w (read.leaves n w) ∧
      ∀ r w', read n w = .ok r w' → r.1.result ≠ .error .notEnumerated ∧
        ∃ events, w'.log = events ++ w.log ∧ f.endpoint.Asked events := by
  dsimp only
  rw [Host.run_readReport, h.pollable?_eq, if_neg hnumber]
  dsimp only
  let x := Host.pollExchange s f.endpoint
  let length := min report.length f.endpoint.maxPacketSize.toNat
  constructor
  · rw [leaves_bind fun moved v => by cases moved.result <;> rfl]
    exact (always_transfer_begun s x report length w).leaves n
  · intro r w' hrun
    obtain ⟨moved, v, hmoved, hpure⟩ := bind_eq_ok.1 hrun
    have hissues : (host.transfer s x report length).Always w
        (fun moved w' => x.Finishes s (min length report.length) w.log moved w')
        _ := always_transfer_issues report length w
    obtain ⟨seen, ⟨events, hlog, hsub, -⟩, hissued⟩ :=
      hissues.ok n moved v hmoved
    obtain ⟨hsize, oddFrame, hchars⟩ := hissued (.inl rfl)
    have hasked : f.endpoint.Asked events :=
      h.asked hnumber ⟨hsub hsize, oddFrame, hsub hchars⟩
    cases hresult : moved.result with
    | ok count =>
      rw [hresult] at hpure
      cases hpure
      exact ⟨nofun, events, hlog, hasked⟩
    | error cause =>
      rw [hresult] at hpure
      cases hpure
      exact ⟨nofun, events, hlog, hasked⟩

end Link.Enumerated

/-- On whatever hardware, an operation that has enumerated a device has found an
endpoint in the configuration that the device has described.  If its number is
0, every poll refuses without touching the hardware, as if the device had not
been enumerated.  Otherwise no poll does: each begins an exchange on channel 1,
and when it comes back, it has asked just that endpoint. -/
theorem found_endpoint_polled {operation : Operation σ}
    (ho : operation.Enumerates) {driver driver' : Driver} {n : Nat}
    {w w' : World Register σ}
    (hrun : operation.perform host driver n w =
      .ok (.finished (.ok ()), driver') w') :
    ∃ s f v v',
      Follows host { s with enumerated := false } (script host.settings s f) v
        (.ok (), driver'.state) v' ∧
      driver'.state.Enumerated f ∧
      (f.endpoint.number = 0 → ∀ report patience u,
        (host.readReport report).run driver'.state patience u =
          .ok (⟨.error .notEnumerated, report⟩, driver'.state) u) ∧
      (f.endpoint.number ≠ 0 → ∀ report patience u,
        let read := (host.readReport report).run driver'.state
        Begun .interrupt u (read.leaves patience u) ∧
          ∀ r u', read patience u = .ok r u' →
            r.1.result ≠ .error .notEnumerated ∧
              ∃ events, u'.log = events ++ u.log ∧
                f.endpoint.Asked events) := by
  obtain ⟨s, f, v, v', hfollows⟩ := ho.follows hrun
  have henumerated := enumerated_of_follows hfollows
  refine ⟨s, f, v, v', hfollows, henumerated, ?_, ?_⟩
  · exact fun hzero => henumerated.refuses hzero host
  · exact fun hnumber => henumerated.asks hnumber host

/-- A bench with a gamepad that describes its reports as coming from an
interrupt-IN endpoint with the number 0. -/
def zeroBench : World Register (Bench.Environment × Bench.TickingClock) :=
  let configuration : List Byte :=
    [9, 2, 38, 0, 1, 1, 0, 0xA0, 0xFA,
      9, 4, 0, 0, 2, 0xFF, 0x5D, 0x01, 0,
      6, 0x21, 0x10, 0x01, 0x01, 0x24,
      7, 5, 0x02, 0x03, 0x20, 0x00, 8,
      7, 5, 0x80, 0x03, 0x20, 0x00, 4]
  let device : Simulation.Device :=
    { configurationDescriptor := configuration }
  ⟨({ target := .simulated { device } }, {}), []⟩

/-- Whether a start has succeeded, and has left a driver that knows as much. -/
def startedAs (state : Link) : Reply × Driver → Bool
  | (.finished result, driver) => decide (result = .ok () ∧ driver = ⟨state, {}⟩)
  | _ => false

theorem started_of_returns {state : Link}
    {w : World Register (Bench.Environment × Bench.TickingClock)}
    (h : (benchStart.perform benchHost {}).returns 20 w
      (fun r _ => startedAs state r) = true) :
    ∃ w', benchStart.perform benchHost {} 20 w =
      .ok (.finished (.ok ()), ⟨state, {}⟩) w' := by
  obtain ⟨⟨reply, driver⟩, w', hrun, hstarted⟩ := exists_of_returns h
  cases reply with
  | finished result =>
    obtain ⟨rfl, rfl⟩ := of_decide_eq_true hstarted
    exact ⟨w', hrun⟩
  | _ => exact nomatch hstarted

/-- That gamepad is enumerated and never polled, where the usual one is
polled. -/
theorem zero_endpoint_not_polled :
    let zeroState : Link := { gamepadState with hid := some ⟨0, 32, 0⟩ }
    (∀ report patience u,
      (benchHost.readReport report).run zeroState patience u =
        .ok (⟨.error .notEnumerated, report⟩, zeroState) u) ∧
      ∀ report patience u, Begun .interrupt u
        (((benchHost.readReport report).run gamepadState).leaves patience
          u) := by
  intro zeroState
  have hstart : benchStart.Enumerates := trivial
  have hzero : (benchStart.perform benchHost {}).returns 20 zeroBench
      (fun r _ => startedAs zeroState r) = true := by
    decide +kernel
  have husual : (benchStart.perform benchHost {}).returns 20 ⟨({}, {}), []⟩
      (fun r _ => startedAs gamepadState r) = true := by
    decide +kernel
  constructor
  · obtain ⟨w', hrun⟩ := started_of_returns hzero
    obtain ⟨s, f, v, v', -, henumerated, hrefuses, -⟩ :=
      found_endpoint_polled hstart hrun
    have hendpoint : f.endpoint = ⟨0, 32, 0⟩ :=
      (Option.some.inj henumerated.hid).symm
    exact hrefuses (by rw [hendpoint])
  · intro report patience u
    obtain ⟨w', hrun⟩ := started_of_returns husual
    obtain ⟨s, f, v, v', -, henumerated, -, hasks⟩ :=
      found_endpoint_polled hstart hrun
    have hendpoint : f.endpoint = ⟨1, 32, 0⟩ :=
      (Option.some.inj henumerated.hid).symm
    obtain ⟨hbegun, -⟩ :=
      hasks (by rw [hendpoint]; decide) report patience u
    exact hbegun

end UsbHost
