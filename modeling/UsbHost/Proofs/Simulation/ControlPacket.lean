import UsbHost.Host.ControlTransfer
import UsbHost.Proofs.Simulation.Outcome

/-!
# A packet of a control transfer on the simulated core

A packet of a control transfer is offered until the device does not refuse it
any more.  If the device answers at all, this comes down to one transaction
with a device that has no refusals left.

## Main results

* `leads_persist` — the rule for repeated attempts: an invariant that a refused
  attempt keeps holds when the attempts end.
* `leads_controlPacket` — a device that is not forced answers one transaction
  after its refusals.
-/

namespace UsbHost.Simulation

/-! ## Control transactions of the device -/

namespace Device

variable {d : Device} {t : Transaction}

/-- The device once it has no refusals left. -/
def ready (d : Device) : Device := { d with nakBudget := 0 }

theorem respond_control (hf : d.forced = none) (ht : t.type = .control)
    (he : t.endpoint = 0) :
    d.respond t =
      if t.address.setWidth 8 ≠ d.address then (.silent, d)
      else if 0 < d.nakBudget then
        (.nak, { d with nakBudget := d.nakBudget - 1 })
      else d.controlTransaction t := by
  simp only [respond, hf, ht, he, and_self, if_true]

/-- A control transaction is acknowledged with data that fits the packet, or
stalled, or broken; it changes nothing of what faults are made of. -/
theorem controlTransaction_response (d : Device) (t : Transaction) :
    ((∃ data, (d.controlTransaction t).1 = .ack data ∧
        data.length ≤ t.maxPacket.toNat) ∨
      (d.controlTransaction t).1 = .stall ∨
      (d.controlTransaction t).1 = .error) := by
  unfold controlTransaction
  split
  · unfold beginControl
    split
    · exact .inl ⟨[], rfl, Nat.zero_le _⟩
    · exact .inr (.inr rfl)
  · split
    · exact .inr (.inl rfl)
    · split
      · exact .inr (.inl rfl)
      · split
        · unfold controlStatus
          split
          · exact .inr (.inl rfl)
          · exact .inl ⟨[], rfl, Nat.zero_le _⟩
        · unfold controlData
          split
          · refine .inl ⟨_, rfl, ?_⟩
            simp only [List.length_drop, List.length_take]
            omega
          · exact .inl ⟨[], rfl, Nat.zero_le _⟩

/-- A device refuses a control transaction just as long as it has refusals
left. -/
theorem respond_nak (hf : d.forced = none) (ht : t.type = .control)
    (he : t.endpoint = 0) (h : (d.respond t).1 = .nak) :
    0 < d.nakBudget ∧
      (d.respond t).2 = { d with nakBudget := d.nakBudget - 1 } := by
  rw [respond_control hf ht he] at h ⊢
  split at h
  · exact nomatch h
  next haddress =>
    rw [if_neg haddress]
    split at h
    next hbudget =>
      rw [if_pos hbudget]
      exact ⟨hbudget, rfl⟩
    next =>
      rcases d.controlTransaction_response t with ⟨data, hr, -⟩ | hr | hr
      all_goals
        rw [hr] at h
        exact nomatch h

/-- A device acknowledges a control transaction only if it is addressed and has
no refusals left. -/
theorem respond_ack {data : List Byte} (hf : d.forced = none)
    (ht : t.type = .control) (he : t.endpoint = 0)
    (h : (d.respond t).1 = .ack data) :
    d.address = t.address.setWidth 8 ∧ d.nakBudget = 0 ∧
      d.respond t = d.controlTransaction t := by
  rw [respond_control hf ht he] at h ⊢
  split at h
  · exact nomatch h
  next haddress =>
    rw [if_neg haddress]
    split at h
    · exact nomatch h
    next hbudget =>
      rw [if_neg hbudget]
      exact ⟨(Decidable.not_not.1 haddress).symm,
        Nat.eq_zero_of_not_pos hbudget, rfl⟩

/-- A device that is addressed refuses a control transaction or performs it. -/
theorem respond_addressed (hf : d.forced = none) (ht : t.type = .control)
    (he : t.endpoint = 0) (ha : d.address = t.address.setWidth 8) :
    (d.respond t).1 = .nak ∨
      d.nakBudget = 0 ∧ d.respond t = d.controlTransaction t := by
  rw [respond_control hf ht he, if_neg (Decidable.not_not.2 ha.symm)]
  by_cases hbudget : 0 < d.nakBudget
  · rw [if_pos hbudget]
    exact .inl rfl
  · rw [if_neg hbudget]
    exact .inr ⟨Nat.eq_zero_of_not_pos hbudget, rfl⟩

end Device

/-! ## Repeated attempts -/

/-- What an exchange came to, as part of a stage. -/
def atStage (stage : Stage) (moved : Moved TransferError) : Moved UsbError :=
  ⟨moved.result.mapError (.transfer stage), moved.buffer⟩

section Persisting

variable {τ : Type} {T : Prop} {clock : Clock τ} {settings : Settings}
  {k : Controller} {s : Link} {x : Exchange} {buffer : List Byte}
  {stage : Stage}

/-- The rule for repeated attempts.  The invariant knows how many are left; an
attempt that is refused has to keep it. -/
theorem leads_persist {I : Nat → Controller → Prop}
    (hdelay : T → (hostOn clock settings).core.DelaysReturn)
    (hT : ∀ n k, I (n + 1) k → T → ¬ k.Starved x s buffer.length ∧
      k.answer (x.transaction s buffer buffer.length) ≠ .silent)
    (hnak : ∀ n k k', I (n + 1) k →
      (k.outcome s x buffer buffer.length).1.result = .error .nak →
      Rests x.channel (k.outcome s x buffer buffer.length).2 k' → I n k')
    {n : Nat} (hI : I n k) :
    Leads T ((hostOn clock settings).persist stage
        (fun b => (hostOn clock settings).transfer s x b b.length) n buffer) k
      fun moved k' =>
        (moved = ⟨.error (.transfer stage .nak), buffer⟩ ∧ I 0 k') ∨
        ∃ n k₁, I (n + 1) k₁ ∧
          (k₁.outcome s x buffer buffer.length).1.result ≠ .error .nak ∧
          moved = atStage stage (k₁.outcome s x buffer buffer.length).1 ∧
          Rests x.channel (k₁.outcome s x buffer buffer.length).2 k' := by
  induction n generalizing k with
  | zero => exact .pure (.inl ⟨rfl, hI⟩)
  | succ n ih =>
    refine (leads_transfer (Nat.min_self _) (hT n k hI)).bind ?_
    intro moved k' hmoved
    obtain ⟨rfl, hk'⟩ := hmoved
    cases hr : (k.outcome s x buffer buffer.length).1.result with
    | ok count =>
      refine .pure (.inr ⟨n, k, hI, ?_, ?_, hk'⟩)
      · rw [hr]
        exact nofun
      · unfold atStage
        rw [hr]
        rfl
    | error e =>
      have hbuffer : (k.outcome s x buffer buffer.length).1.buffer = buffer :=
        by rw [outcome_error hr]
      cases e with
      | nak =>
        have hI' : I n k' := hnak n k k' hI hr hk'
        dsimp only
        rw [hbuffer]
        split
        · refine (leads_delay (Q := fun _ v => k' = v) hdelay rfl).bind ?_
          intro _ v hv
          subst hv
          exact ih hI'
        · exact ih hI'
      | _ =>
        refine .pure (.inr ⟨n, k, hI, ?_, ?_, hk'⟩)
        · rw [hr]
          exact nofun
        · unfold atStage
          rw [hr]
          rfl

end Persisting

/-! ## Packets to a device that is not forced -/

/-- `k'` is `k` with another device, after traffic that has left nothing behind
for the control channel. -/
structure Became (k : Controller) (d : Device) (k' : Controller) : Prop where
  core : SameCore k k'
  clean : k'.Clean .control
  device : k'.device = d

/-- The transaction of a packet of a control transfer. -/
def packet (s : Link) (direction : Direction) (pid : Pid)
    (buffer : List Byte) : Transaction :=
  (Exchange.control direction pid).transaction s buffer buffer.length

section Fields

variable (s : Link) (direction : Direction) (pid : Pid) (buffer : List Byte)

theorem packet_pid : (packet s direction pid buffer).pid = pid := rfl

theorem packet_direction :
    (packet s direction pid buffer).direction = direction := rfl

theorem packet_maxPacket : (packet s direction pid buffer).maxPacket =
    s.ep0MaxPacket.setWidth 11 := rfl

/-- A packet that fits carries the whole buffer. -/
theorem packet_data (h : buffer.length ≤ s.ep0MaxPacket.toNat) :
    (packet s .toDevice pid buffer).data = buffer := by
  show buffer.take (min buffer.length s.ep0MaxPacket.toNat) = buffer
  rw [Nat.min_eq_left h, List.take_length]

/-- A packet without data never waits for room. -/
theorem not_starved_in (k : Controller) (room : Nat) :
    ¬ k.Starved (.control .toHost pid) s room :=
  fun h => nomatch h.1.1

theorem not_starved_empty (k : Controller) :
    ¬ k.Starved (.control direction pid) s 0 := by
  intro h
  have hpositive : 0 < (Exchange.control direction pid).requested s 0 := h.1.2
  have hout : direction = .toDevice := h.1.1
  rw [hout] at hpositive
  have hzero : (Exchange.control .toDevice pid).requested s 0 = 0 :=
    Nat.zero_min _
  omega

end Fields

/-- What the host takes an acknowledged packet for. -/
def taken (s : Link) (buffer data : List Byte) : Direction → Moved UsbError
  | .toDevice => ⟨.ok (min buffer.length s.ep0MaxPacket.toNat), buffer⟩
  | .toHost =>
    ⟨.ok (min buffer.length data.length),
      data.take buffer.length ++ buffer.drop (min buffer.length data.length)⟩

section Packet

variable {τ : Type} {T : Prop} {clock : Clock τ} {settings : Settings}
  {k : Controller} {s : Link} {direction : Direction} {pid : Pid}
  {buffer : List Byte} {stage : Stage}

/-- An acknowledged exchange of a control packet, as it shows. -/
theorem outcome_control {data : List Byte} (hclean : k.Clean .control)
    (hf : k.device.forced = none)
    (hfits : ¬ k.Starved (.control direction pid) s buffer.length)
    (hr : k.answer (packet s direction pid buffer) = .ack data) :
    let moved := k.outcome s (.control direction pid) buffer buffer.length
    atStage stage moved.1 = taken s buffer data direction ∧
      moved.2.Clean .control ∧
      (data.length ≤ (packet s direction pid buffer).maxPacket.toNat) := by
  intro moved
  obtain ⟨-, -, hack⟩ := Device.respond_ack hf rfl rfl hr
  have hdata : data.length ≤
      (packet s direction pid buffer).maxPacket.toNat := by
    unfold Controller.answer at hr
    rw [hack] at hr
    rcases k.device.controlTransaction_response
      (packet s direction pid buffer) with ⟨data', h, hle⟩ | h | h
    · rw [h] at hr
      cases hr
      exact hle
    · rw [h] at hr
      exact nomatch hr
    · rw [h] at hr
      exact nomatch hr
  have hpacket := (packet s direction pid buffer).maxPacket.isLt
  have hlength : data.length < 2048 := by omega
  refine ⟨?_, ?_, hdata⟩
  · cases direction with
    | toDevice =>
      have hout := outcome_out hfits hr rfl
      unfold atStage
      rw [hout]
      rfl
    | toHost =>
      have hin := (outcome_in hclean hr rfl hlength).1
      unfold atStage
      rw [hin]
      rfl
  · refine outcome_clean hclean rfl fun data' hr' => ?_
    have hsame : Response.ack data' = .ack data := hr'.symm.trans hr
    cases hsame
    exact hlength

/-- The controller while a packet is refused: some refusals are used up. -/
def Refused (T : Prop) (k : Controller) (n : Nat) (k' : Controller) : Prop :=
  ∃ b, Became k { k.device with nakBudget := b } k' ∧ (T → b < n)

theorem Refused.step {n : Nat} {k' k'' : Controller}
    (hf : k.device.forced = none) (h : Refused T k (n + 1) k')
    (hnak : (k'.outcome s (.control direction pid) buffer
      buffer.length).1.result = .error .nak)
    (hk : Rests .control (k'.outcome s (.control direction pid) buffer
      buffer.length).2 k'') : Refused T k n k'' := by
  obtain ⟨b, hk', hb⟩ := h
  have hf' : k'.device.forced = none := by
    rw [hk'.device]
    exact hf
  obtain ⟨hfits, hr⟩ := answer_of_outcome_nak hnak
  obtain ⟨hpositive, hdevice⟩ := Device.respond_nak hf' rfl rfl hr
  have hclean := outcome_clean hk'.clean rfl fun data hr' => by
    rw [hr] at hr'
    exact nomatch hr'
  rw [hk'.device] at hpositive
  refine ⟨b - 1, ⟨?_, hk.clean_iff.2 hclean, ?_⟩, fun ht => ?_⟩
  · exact hk'.core.trans ((outcome_sameCore _ _ _ _ _).trans hk.sameCore)
  · rw [hk.device_eq, outcome_device, if_neg hfits, hdevice, hk'.device]
  · have hlt := hb ht
    have hpos : 0 < b := hpositive
    omega

/-- However often it has refused, a device either refuses once more or answers
as it would without refusals. -/
theorem Refused.answer {n : Nat} {k' : Controller} {data : List Byte}
    (hf : k.device.forced = none) (h : Refused T k n k')
    (ha : k.device.address = (s.address.setWidth 7).setWidth 8)
    (hr : (k.device.ready.controlTransaction
      (packet s direction pid buffer)).1 = .ack data) :
    k'.answer (packet s direction pid buffer) = .nak ∨
      k'.answer (packet s direction pid buffer) = .ack data := by
  obtain ⟨b, hk', -⟩ := h
  have hf' : k'.device.forced = none := by
    rw [hk'.device]
    exact hf
  have ha' : k'.device.address =
      (packet s direction pid buffer).address.setWidth 8 := by
    rw [hk'.device]
    exact ha
  rcases Device.respond_addressed hf' rfl rfl ha' with hnak | ⟨hzero, hready⟩
  · exact .inl hnak
  · right
    have hdevice : k'.device = k.device.ready := by
      rw [hk'.device] at hzero ⊢
      have hb : b = 0 := hzero
      rw [hb]
      rfl
    unfold Controller.answer
    rw [hready, hdevice]
    exact hr

/-- What the host takes the packet for once it is acknowledged. -/
theorem Refused.became {n count : Nat} {k' k'' : Controller}
    (hf : k.device.forced = none) (h : Refused T k n k')
    (hok : (k'.outcome s (.control direction pid) buffer
      buffer.length).1.result = .ok count)
    (hk : Rests .control (k'.outcome s (.control direction pid) buffer
      buffer.length).2 k'') :
    ∃ data d, k.device.address = (s.address.setWidth 7).setWidth 8 ∧
      k.device.ready.controlTransaction (packet s direction pid buffer) =
        (.ack data, d) ∧
      atStage stage (k'.outcome s (.control direction pid) buffer
        buffer.length).1 = taken s buffer data direction ∧
      Became k d k'' := by
  obtain ⟨hfits, data, hr⟩ := answer_of_outcome_ok hok
  obtain ⟨b, hk', -⟩ := h
  have hf' : k'.device.forced = none := by
    rw [hk'.device]
    exact hf
  obtain ⟨ha, hzero, hready⟩ := Device.respond_ack hf' rfl rfl hr
  have hdevice : k'.device = k.device.ready := by
    rw [hk'.device] at hzero ⊢
    have hb : b = 0 := hzero
    rw [hb]
    rfl
  obtain ⟨htaken, hclean, -⟩ := outcome_control hk'.clean hf'
    hfits hr
  rw [hdevice] at ha hready
  have hack : (k.device.ready.controlTransaction
      (packet s direction pid buffer)).1 = .ack data := by
    rw [← hr]
    unfold Controller.answer
    rw [hdevice]
    exact (congrArg Prod.fst hready).symm
  refine ⟨data, _, ha, Prod.ext hack rfl, htaken, ?_, ?_, ?_⟩
  · exact hk'.core.trans ((outcome_sameCore _ _ _ _ _).trans hk.sameCore)
  · exact hk.clean_iff.2 hclean
  · rw [hk.device_eq, outcome_device, if_neg hfits, hdevice]
    exact congrArg Prod.snd hready

/-- A device that is not forced refuses a packet for a while and then answers
one transaction; what it acknowledges is what the host reports.  It does
acknowledge the packet if it is addressed, has few enough refusals left and
would acknowledge the transaction without them. -/
theorem leads_controlPacket (hf : k.device.forced = none)
    (hclean : k.Clean .control)
    (hT : T → (hostOn clock settings).core.DelaysReturn ∧
      k.device.address = (s.address.setWidth 7).setWidth 8 ∧
      k.device.nakBudget < settings.nakRetryLimit ∧
      ¬ k.Starved (.control direction pid) s buffer.length ∧
      ∃ data, (k.device.ready.controlTransaction
        (packet s direction pid buffer)).1 = .ack data) :
    Leads T ((hostOn clock settings).controlPacket s stage direction pid buffer)
      k fun moved k' =>
        (¬ T ∧ ∃ e, moved = ⟨.error e, buffer⟩) ∨
        ∃ data d, k.device.address = (s.address.setWidth 7).setWidth 8 ∧
          k.device.ready.controlTransaction (packet s direction pid buffer) =
            (.ack data, d) ∧
          moved = taken s buffer data direction ∧ Became k d k' := by
  have hstart : Refused T k settings.nakRetryLimit k :=
    ⟨k.device.nakBudget, ⟨.refl k, hclean, rfl⟩, fun ht => (hT ht).2.2.1⟩
  have hfits : ∀ n k', Refused T k n k' → T →
      ¬ k'.Starved (.control direction pid) s buffer.length := by
    intro n k' hk' ht hstarved
    obtain ⟨b, hbecame, -⟩ := hk'
    exact (hT ht).2.2.2.1 ((hbecame.core.starved_iff _ _ _).1 hstarved)
  refine (leads_persist (I := Refused T k) (fun ht => (hT ht).1) ?_ ?_
    hstart).mono ?_
  · intro n k' hk' ht
    obtain ⟨-, ha, -, -, data, hdata⟩ := hT ht
    refine ⟨hfits _ k' hk' ht, fun hsilent => ?_⟩
    rcases hk'.answer hf ha hdata with hr | hr
    · exact nomatch hr.symm.trans hsilent
    · exact nomatch hr.symm.trans hsilent
  · intro n k' k'' hk' hnak hk''
    exact hk'.step hf hnak hk''
  · intro moved k' hmoved
    rcases hmoved with ⟨rfl, hk'⟩ | ⟨n, k₁, hk₁, hne, rfl, hk'⟩
    · obtain ⟨b, -, hb⟩ := hk'
      exact .inl ⟨fun ht => absurd (hb ht) (Nat.not_lt_zero b), _, rfl⟩
    · cases hresult : (k₁.outcome s (.control direction pid) buffer
          buffer.length).1.result with
      | error e =>
        refine .inl ⟨fun ht => ?_, .transfer stage e, ?_⟩
        · obtain ⟨-, ha, -, -, data, hdata⟩ := hT ht
          have hends : ∃ count, (k₁.outcome s (.control direction pid) buffer
              buffer.length).1.result =
                (k₁.answer (packet s direction pid buffer)).ending.map
                  fun _ => count := outcome_result (hfits _ k₁ hk₁ ht) buffer
          obtain ⟨count, hends⟩ := hends
          rcases hk₁.answer hf ha hdata with hr | hr
          · rw [hr] at hends
            exact hne hends
          · rw [hresult, hr] at hends
            exact nomatch hends
        · unfold atStage
          rw [outcome_error hresult]
          rfl
      | ok count => exact .inr (hk₁.became hf hresult hk')

end Packet

end UsbHost.Simulation
