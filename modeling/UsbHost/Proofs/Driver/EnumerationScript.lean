import UsbHost.Proofs.Driver.Programming
import UsbHost.Proofs.Host.Answers

/-!
# The script of an enumeration

An enumeration is a fixed sequence of steps, and what is known about the device
after each of them is fixed by what the steps have found out.  On whatever
hardware it takes these steps one after another, up to the first that fails, and
comes back with the error of that step and with what was known before it.  It
fails to come back only where one of the steps does.

## Main results

* `always_control_addressed` — a control transfer speaks to the device as it is
  known.
* `script` — the steps, and what is known after each.
* `Taken`, `Follows`, `StopsIn` — how far a script has been followed.
* `enumeration_follows_script` — every enumeration follows its script.
-/

namespace UsbHost

open Run

variable {σ : Type} {host : Host σ}

/-! ## Addressed packets -/

/-- An event may enable a channel only for endpoint 0 of the device as it is
known, and for packets of the size that is known. -/
def Link.Addresses (known : Link) : Event Register → Prop
  | .write (.channel c .characteristics) v =>
    c = .control ∧ (ChannelCharacteristics.disable.get ⟨v⟩ = true ∨
      ChannelCharacteristics.deviceAddress.get ⟨v⟩ =
          known.address.setWidth 7 ∧
        ChannelCharacteristics.endpoint.get ⟨v⟩ = 0 ∧
        ChannelCharacteristics.maxPacketSize.get ⟨v⟩ =
          known.ep0MaxPacket.setWidth 11)
  | _ => True

/-- An event writes to no register of a channel. -/
def Event.SparesChannels : Event Register → Prop
  | .write (.channel _ _) _ => False
  | _ => True

section Addressed

variable {known : Link} {earlier : List (Event Register)}

theorem Exchange.Issues.addresses {direction : Direction} {pid : Pid}
    {room : Nat} {e : Event Register}
    (h : (Exchange.control direction pid).Issues known room e) :
    known.Addresses e := by
  unfold Issues at h
  split at h
  · obtain ⟨hc, hdisable | ⟨oddFrame, rfl⟩⟩ := h
    · exact ⟨hc, .inl hdisable⟩
    · obtain ⟨-, -, haddress, hendpoint, -, -, hsize, -⟩ :=
        characteristics_fields (Exchange.control direction pid) known oddFrame
      exact ⟨hc, .inr ⟨haddress, hendpoint, hsize⟩⟩
  · trivial
  next hchars hsize =>
    unfold Link.Addresses
    split
    · exact absurd rfl (hchars _ _)
    · trivial

/-- The passing of time enables no channel. -/
theorem timeless_addressed :
    host.core.Timeless (World.Since earlier [] known.Addresses) where
  now := fun w hw => .of_eq (host.core.now_run · w) (hw.cons (by trivial) _)
  skip _ _ _ _ hw := hw.cons (by trivial) _

/-- The packets of control transfers are addressed to the device as it is
known. -/
theorem carries_addressed (host : Host σ) (known : Link)
    (earlier : List (Event Register)) :
    host.Carries known (World.Since earlier [] known.Addresses)
      (World.Since earlier [] known.Addresses) where
  stop _ hw := hw
  pause := timeless_addressed.delay _
  packet direction pid buffer w hw := by
    have h : (host.transfer known (.control direction pid) buffer
        buffer.length).Always w _ _ :=
      always_transfer_issues buffer buffer.length w
    refine (h.weaken fun w' hw' => ?_).mono fun moved w' hw' => ?_
    · exact hw.trans (hw'.mono fun _ he => he.addresses)
    · obtain ⟨seen, hsince, -⟩ := hw'
      exact hw.trans (hsince.forget.mono fun _ he => he.addresses)

/-- A control transfer speaks to endpoint 0 of the device as it is known, in
packets of the size that is known, from its first packet to its last. -/
theorem always_control_addressed (host : Host σ) (known : Link)
    (setup : SetupPacket) (buffer : List Byte) (w : World Register σ) :
    (host.control known setup buffer).Always w
      (fun _ => World.Since w.log [] known.Addresses)
      (World.Since w.log [] known.Addresses) :=
  (carries_addressed host known w.log).control setup buffer w (.refl w _)

/-- What is done with the port spares the channels. -/
theorem tendsPort_sparing (host : Host σ) (earlier : List (Event Register)) :
    host.TendsPort (World.Since earlier [] Event.SparesChannels) := by
  have hread : Preserves (World.Since earlier [] Event.SparesChannels)
      (host.core.read .port) :=
    fun w hw => .of_eq (host.core.read_run .port · w) (hw.cons (by trivial) _)
  have hload : Preserves (World.Since earlier [] Event.SparesChannels)
      (host.core.load .port) :=
    hread.bind fun _ => .pure _
  have hwrite : ∀ v, Preserves (World.Since earlier [] Event.SparesChannels)
      (host.core.write .port v) := fun v w hw =>
    .of_eq (host.core.write_run .port v · w) (hw.cons (by trivial) _)
  exact
    { now := fun w hw =>
        .of_eq (host.core.now_run · w) (hw.cons (by trivial) _)
      skip := fun _ _ _ _ hw => hw.cons (by trivial) _
      readPort := hread
      updatePort := fun _ => hload.bind fun _ => hwrite _
      acknowledgePort := fun _ => hload.bind fun _ => hwrite _ }

end Addressed

namespace Enumeration

/-! ## Steps -/

/-- A buffer before anything has been received. -/
def zeros (room : Nat) : List Byte := List.replicate room 0

/-- A step of an enumeration, with what it finds out. -/
inductive Step where
  /-- A control transfer, with room for an answer. -/
  | request (setup : SetupPacket) (room : Nat) (answer : List Byte)
  /-- A reset of the bus, after which the port has come up at a speed. -/
  | reset (speed : Speed)
  | pause (duration : Duration)
  /-- The search of a configuration for an endpoint. -/
  | search (configuration : List Byte) (endpoint : HidEndpoint)

namespace Step

variable (host : Host σ) (known : Link)

/-- The step, taken with the device as it is known, succeeds and leads from one
world to another.  The answer to a request stands at the front of a buffer of
zeros. -/
def Succeeds : Step → World Register σ → World Register σ → Prop
  | request setup room answer, w, w' =>
    answer.length ≤ room ∧ w'.Since w.log [] known.Addresses ∧
      ∃ patience, host.control known setup (zeros room) patience w =
        .ok ⟨.ok answer.length, answer ++ zeros (room - answer.length)⟩ w'
  | reset speed, w, w' =>
    w'.Since w.log [] Event.SparesChannels ∧
      ∃ patience, host.resetBus.run.run known patience w =
        .ok (.ok (), known.afterReset speed) w'
  | pause duration, w, w' =>
    w'.Since w.log [] Event.SparesChannels ∧
      ∃ patience, host.core.delay duration patience w = .ok () w'
  | search configuration endpoint, w, w' =>
    HidEndpoint.find? configuration = some endpoint ∧ w' = w

/-- The step fails with an error. -/
def Fails (e : UsbError) : Step → World Register σ → World Register σ → Prop
  | request setup room _, w, w' =>
    w'.Since w.log [] known.Addresses ∧
      ∃ patience buffer, host.control known setup (zeros room) patience w =
        .ok ⟨.error e, buffer⟩ w'
  | reset _, w, w' =>
    w'.Since w.log [] Event.SparesChannels ∧
      ∃ patience, host.resetBus.run.run known patience w =
        .ok (.error e, known) w'
  | pause _, _, _ => False
  | search configuration _, w, w' =>
    HidEndpoint.find? configuration = none ∧ e = .noInterruptEndpoint ∧ w' = w

/-- The step comes to a stop without a result. -/
def Stops : Step → World Register σ → World Register σ → Prop
  | request setup room _, w, w' =>
    w'.Since w.log [] known.Addresses ∧
      ∃ patience halt, host.control known setup (zeros room) patience w =
        .error halt w'
  | reset _, w, w' =>
    w'.Since w.log [] Event.SparesChannels ∧ ∃ patience halt,
      host.resetBus.run.run known patience w = .error halt w'
  | pause duration, w, w' =>
    w'.Since w.log [] Event.SparesChannels ∧ ∃ patience halt,
      host.core.delay duration patience w = .error halt w'
  | search _ _, _, _ => False

end Step

/-! ## Following a script -/

/-- The steps to be taken, and what is known after each. -/
abbrev Script := List (Step × Link)

section Following

variable (host : Host σ) (s : Link) (script : Script) (w : World Register σ)

/-- The steps have been taken one after another, with nothing in between, from
what was known and the world at first to what is known and the world at last. -/
inductive Taken : Script → Link → World Register σ → Prop where
  | none : Taken [] s w
  | next {taken : Script} {known : Link} {v v' : World Register σ} {step : Step}
      (after : Link) :
    Taken taken known v → step.Succeeds host known v v' →
    Taken (taken ++ [(step, after)]) after v'

/-- How a script ends that is followed: with all of its steps taken, or with the
error of the first one that fails, and with what was known before that. -/
inductive Follows : Except UsbError Unit × Link → World Register σ → Prop where
  | complete {known : Link} {w' : World Register σ} :
    Taken host s w script known w' → Follows (.ok (), known) w'
  | failed {taken rest : Script} {step : Step} {after known : Link}
      {v w' : World Register σ} {e : UsbError} :
    script = taken ++ (step, after) :: rest → Taken host s w taken known v →
    step.Fails host known e v w' → Follows (.error e, known) w'

/-- Where a script that is followed can stop without a result: in one of its
steps. -/
inductive StopsIn : World Register σ → Prop where
  | intro {taken rest : Script} {step : Step} {after known : Link}
      {v w' : World Register σ} :
    script = taken ++ (step, after) :: rest → Taken host s w taken known v →
    step.Stops host known v w' → StopsIn w'

end Following

/-! ## The script -/

/-- What an enumeration finds out. -/
structure Findings where
  /-- The first eight bytes of the device descriptor, as far as there are. -/
  head : List Byte := []
  speed : Speed := .full
  device : List Byte := []
  configuration : List Byte := []
  endpoint : HidEndpoint := ⟨0, 0, 0⟩

/-- The packet size of endpoint 0 that has been learned. -/
def Findings.ep0MaxPacket (f : Findings) : Half :=
  ep0PacketSize (byteAt f.head 7)

/-- The steps of an enumeration, and what is known after each.  The packet size
that the first request has learned outlives the reset. -/
def script (settings : Settings) (s : Link) (f : Findings) : Script :=
  let sized := { s with enumerated := false, ep0MaxPacket := f.ep0MaxPacket }
  let reset := { sized with speed := f.speed, address := 0 }
  let addressed := { reset with address := 1 }
  let located := { addressed with hid := some f.endpoint, toggle := false }
  let value := configurationValue f.configuration
  [(.request (.getDescriptor .device 0 8) 8 f.head, sized),
    (.reset f.speed, reset),
    (.pause settings.resetSettle, reset),
    (.request (.setAddress 1) 0 [], addressed),
    (.pause settings.addressSettle, addressed),
    (.request (.getDescriptor .device 0 18) 18 f.device, addressed),
    (.request (.getDescriptor .configuration 0 64) 64 f.configuration,
      addressed),
    (.search f.configuration f.endpoint, located),
    (.request (.setConfiguration value) 0 [],
      { located with enumerated := true })]

/-! ## Taking steps -/

section Steps

variable {known : Link} {w : World Register σ}

theorem byteAt_zeros (answer : List Byte) (room i : Nat) :
    byteAt (answer ++ zeros room) i = byteAt answer i := by
  unfold byteAt zeros
  by_cases hi : i < answer.length
  · rw [List.getElem?_append_left hi]
  · have hle : answer.length ≤ i := Nat.le_of_not_lt hi
    rw [List.getElem?_append_right hle, List.getElem?_eq_none hle,
      List.getElem?_replicate]
    split <;> rfl

/-- The answer to a request is what the transfer says has been received. -/
theorem slice_answer (answer : List Byte) (room : Nat) :
    (Run.slice (answer ++ zeros room) 0 answer.length :
      Run Register σ (List Byte)) = pure answer := by
  have hle : answer.length ≤ (answer ++ zeros room).length := by
    rw [List.length_append]
    omega
  rw [Run.slice_eq (Nat.zero_le _) hle, List.drop_zero, List.take_left]

/-- Whatever becomes of a control transfer, it is a step. -/
theorem always_control (setup : SetupPacket) (room : Nat) :
    (host.control known setup (zeros room)).Always w
      (fun moved w' =>
        (∃ answer, moved =
            ⟨.ok answer.length, answer ++ zeros (room - answer.length)⟩ ∧
          (Step.request setup room answer).Succeeds host known w w') ∨
        ∃ e, moved.result = .error e ∧ ∀ answer,
          (Step.request setup room answer).Fails host known e w w')
      (fun w' => ∀ answer,
        (Step.request setup room answer).Stops host known w w') := by
  have hran := Always.ran (host.control known setup (zeros room)) w
  have haddressed := always_control_addressed host known setup (zeros room) w
  have hfills : (host.control known setup (zeros room)).Always w
      (fun moved _ => moved.Fills (zeros room)) fun _ => True :=
    .of_yields (yields_control_fills host known setup (zeros room) w)
  refine ((hran.and (haddressed.and hfills)).weaken ?_).mono ?_
  · rintro w' ⟨⟨n, halt, hrun⟩, hsince, -⟩ answer
    exact ⟨hsince, n, halt, hrun⟩
  · rintro ⟨result, bytes⟩ w' ⟨⟨n, hrun⟩, hsince, hfill⟩
    cases result with
    | error e => exact .inr ⟨e, rfl, fun _ => ⟨hsince, n, bytes, hrun⟩⟩
    | ok count =>
      let answer := bytes.take count
      have hlength : bytes.length = room :=
        hfill.length_eq.trans List.length_replicate
      have hcount : count ≤ room := by
        have hle : count ≤ (zeros room).length := hfill.count_le count rfl
        rwa [zeros, List.length_replicate] at hle
      have hanswer : answer.length = count := by
        rw [List.length_take, hlength, Nat.min_eq_left hcount]
      have hbytes : bytes = answer ++ zeros (room - answer.length) := by
        rw [hanswer]
        exact hfill.buffer_eq rfl
      have hmoved : (⟨.ok count, bytes⟩ : Moved UsbError) =
          ⟨.ok answer.length, answer ++ zeros (room - answer.length)⟩ := by
        rw [← hbytes, hanswer]
      rw [hmoved] at hrun ⊢
      exact .inl ⟨answer, rfl, hanswer ▸ hcount, hsince, n, hrun⟩

/-- A reset of the bus that fails has changed nothing of what is known. -/
theorem yields_resetBus (host : Host σ) (known : Link) (w : World Register σ) :
    (host.resetBus.run.run known).Yields False w fun r _ =>
      (∃ e, r = (.error e, known)) ∨
        ∃ speed, r = (.ok (), known.afterReset speed) := by
  unfold Host.resetBus
  refine HostM.yields_lift fun connected w => ?_
  cases connected with
  | false => exact .pure (.inl ⟨.noDevice, rfl⟩)
  | true =>
    rw [if_neg (by decide)]
    refine HostM.yields_lift fun _ w => HostM.yields_lift fun _ w => ?_
    refine HostM.yields_lift fun _ w => HostM.yields_lift fun _ w => ?_
    refine HostM.yields_lift fun _ w => HostM.yields_lift fun _ w => ?_
    refine HostM.yields_lift fun speed w => ?_
    cases speed with
    | none => exact .pure (.inl ⟨.portEnableTimeout, rfl⟩)
    | some speed => exact .pure (.inr ⟨speed, rfl⟩)

end Steps

/-! ## Following the script -/

section Following

variable {F : Type} {scripts : F → Script} {s known : Link}
  {w v : World Register σ} {taken : Script}

/-- An operation that was begun in `w` with the steps that have been taken goes
on in `v` as one of the scripts does. -/
def Continues (host : Host σ) (scripts : F → Script) (s known : Link)
    (w v : World Register σ) (p : HostM σ Unit) : Prop :=
  (p.run.run known).Always v
    (fun r w' => ∃ f, Follows host s (scripts f) w r w')
    fun w' => ∃ f, StopsIn host s (scripts f) w w'

/-- After the steps that have been taken, one of the scripts has the step
next. -/
def Comes (scripts : F → Script) (taken : Script) (step : Step)
    (after : Link) : Prop :=
  ∃ f rest, scripts f = taken ++ (step, after) :: rest

theorem continues_request {setup : SetupPacket} {room : Nat}
    {g : Nat × List Byte → HostM σ Unit} (after : List Byte → Link)
    (htaken : Taken host s w taken known v)
    (hcomes : ∀ answer, answer.length ≤ room →
      Comes scripts taken (.request setup room answer) (after answer))
    (hnext : ∀ answer v', answer.length ≤ room →
      Taken host s w (taken ++ [(.request setup room answer, after answer)])
        (after answer) v' →
      Continues host scripts s known w v'
        (g (answer.length, answer ++ zeros (room - answer.length)))) :
    Continues host scripts s known w v
      (host.request setup (zeros room) >>= g) := by
  unfold Continues Host.request
  refine HostM.always_bind (R := fun r v' =>
    (∃ answer, r = (.ok (answer.length,
        answer ++ zeros (room - answer.length)), known) ∧
      (Step.request setup room answer).Succeeds host known v v') ∨
    ∃ e, r = (.error e, known) ∧ ∀ answer,
      (Step.request setup room answer).Fails host known e v v') ?_ ?_ ?_
  · rw [HostM.run_bind, HostM.run_get, pure_bind]
    refine HostM.always_lift ((always_control setup room).weaken ?_) ?_
    · intro w' hstops
      obtain ⟨f, rest, hf⟩ := hcomes [] (Nat.zero_le room)
      exact ⟨f, .intro hf htaken (hstops [])⟩
    · intro moved v' hmoved
      obtain ⟨answer, rfl, hsucceeds⟩ | ⟨e, he, hfails⟩ := hmoved
      · exact .pure (.inl ⟨answer, rfl, hsucceeds⟩)
      · dsimp only
        rw [he]
        exact .pure (.inr ⟨e, rfl, hfails⟩)
  · rintro a s' v' (⟨answer, hr, hsucceeds⟩ | ⟨e, hr, -⟩)
    · cases hr
      exact hnext answer v' hsucceeds.1 (htaken.next _ hsucceeds)
    · exact nomatch hr
  · rintro e s' v' (⟨answer, hr, -⟩ | ⟨e', hr, hfails⟩)
    · exact nomatch hr
    · cases hr
      obtain ⟨f, rest, hf⟩ := hcomes [] (Nat.zero_le room)
      exact ⟨f, .failed hf htaken (hfails [])⟩

/-- A request that leaves no room for an answer. -/
theorem continues_command {setup : SetupPacket}
    {g : Nat × List Byte → HostM σ Unit} (after : Link)
    (htaken : Taken host s w taken known v)
    (hcomes : Comes scripts taken (.request setup 0 []) after)
    (hnext : ∀ v',
      Taken host s w (taken ++ [(.request setup 0 [], after)]) after v' →
      Continues host scripts s known w v' (g (0, []))) :
    Continues host scripts s known w v (host.request setup [] >>= g) := by
  change Continues host scripts s known w v
    (host.request setup (zeros 0) >>= g)
  refine continues_request (fun _ => after) htaken ?_ ?_
  · intro answer hanswer
    obtain rfl := List.length_eq_zero_iff.1 (Nat.le_zero.1 hanswer)
    exact hcomes
  · intro answer v' hanswer taken
    obtain rfl := List.length_eq_zero_iff.1 (Nat.le_zero.1 hanswer)
    exact hnext v' taken

theorem continues_reset {g : Unit → HostM σ Unit} (after : Speed → Link)
    (htaken : Taken host s w taken known v)
    (hcomes : ∀ speed, Comes scripts taken (.reset speed) (after speed))
    (hnext : ∀ speed v',
      Taken host s w (taken ++ [(.reset speed, after speed)]) (after speed)
        v' →
      Continues host scripts s (known.afterReset speed) w v' (g ())) :
    Continues host scripts s known w v (host.resetBus >>= g) := by
  have hsparing := (tendsPort_sparing host v.log).resetBus known v (.refl v _)
  have hreset := (Always.ran (host.resetBus.run.run known) v).and
    (hsparing.and (.of_yields (yields_resetBus host known v)))
  refine HostM.always_bind (hreset.weaken ?_) ?_ ?_
  · rintro w' ⟨⟨n, halt, hrun⟩, hsince, -⟩
    obtain ⟨f, rest, hf⟩ := hcomes .full
    exact ⟨f, .intro hf htaken ⟨hsince, n, halt, hrun⟩⟩
  · rintro a s' v' ⟨⟨n, hrun⟩, hsince, ⟨e, hr⟩ | ⟨speed, hr⟩⟩
    · exact nomatch hr
    · cases hr
      exact hnext speed v' (htaken.next _ ⟨hsince, n, hrun⟩)
  · rintro e s' v' ⟨⟨n, hrun⟩, hsince, ⟨e', hr⟩ | ⟨speed, hr⟩⟩
    · cases hr
      obtain ⟨f, rest, hf⟩ := hcomes .full
      exact ⟨f, .failed hf htaken ⟨hsince, n, hrun⟩⟩
    · exact nomatch hr

theorem continues_pause {d : Duration} {g : Unit → HostM σ Unit}
    (after : Link) (htaken : Taken host s w taken known v)
    (hcomes : Comes scripts taken (.pause d) after)
    (hnext : ∀ v', Taken host s w (taken ++ [(.pause d, after)]) after v' →
      Continues host scripts s known w v' (g ())) :
    Continues host scripts s known w v (host.core.delay d >>= g) := by
  have hsparing := (tendsPort_sparing host v.log).delay d v (.refl v _)
  have hdelay := (Always.ran (host.core.delay d) v).and hsparing
  refine HostM.always_lift (hdelay.weaken ?_) ?_
  · rintro w' ⟨⟨n, halt, hrun⟩, hsince⟩
    obtain ⟨f, rest, hf⟩ := hcomes
    exact ⟨f, .intro hf htaken ⟨hsince, n, halt, hrun⟩⟩
  · rintro a v' ⟨⟨n, hrun⟩, hsince⟩
    exact hnext v' (htaken.next _ ⟨hsince, n, hrun⟩)

/-- The search for an endpoint is a step that touches nothing. -/
theorem continues_search {configuration : List Byte}
    {g : HidEndpoint → HostM σ Unit} (after : HidEndpoint → Link)
    (htaken : Taken host s w taken known v)
    (hcomes : ∀ endpoint,
      Comes scripts taken (.search configuration endpoint) (after endpoint))
    (hnext : ∀ endpoint,
      Taken host s w
        (taken ++ [(.search configuration endpoint, after endpoint)])
        (after endpoint) v →
      Continues host scripts s known w v (g endpoint)) :
    Continues host scripts s known w v
      (match HidEndpoint.find? configuration with
      | none => throw .noInterruptEndpoint
      | some endpoint => g endpoint) := by
  cases hfind : HidEndpoint.find? configuration with
  | none =>
    obtain ⟨f, rest, hf⟩ := hcomes ⟨0, 0, 0⟩
    have hfails : (Step.search configuration ⟨0, 0, 0⟩).Fails host known
        .noInterruptEndpoint v v := ⟨hfind, rfl, rfl⟩
    exact .pure ⟨f, .failed hf htaken hfails⟩
  | some endpoint =>
    have hsucceeds : (Step.search configuration endpoint).Succeeds host known v
        v := ⟨hfind, rfl⟩
    exact hnext endpoint (htaken.next _ hsucceeds)

/-- What is known is changed between two steps. -/
theorem continues_modify {f : Link → Link} {g : Unit → HostM σ Unit}
    (after : Link) (hafter : f known = after)
    (hnext : Continues host scripts s after w v (g ())) :
    Continues host scripts s known w v
      ((modify f : HostM σ Unit) >>= g) := by
  unfold Continues
  rw [HostM.run_bind, HostM.run_modify, pure_bind, hafter]
  exact hnext

/-- A check that succeeds is no step. -/
theorem continues_checked {α : Type} {p : Run Register σ α} {a : α}
    {g : α → HostM σ Unit} (hp : p = pure a)
    (hnext : Continues host scripts s known w v (g a)) :
    Continues host scripts s known w v (liftM p >>= g) := by
  unfold Continues
  rw [HostM.run_lift_bind, hp, pure_bind]
  exact hnext

/-- Whatever becomes of an enumeration, it has followed the script. -/
theorem continues_enumerate (host : Host σ) (s : Link) (w : World Register σ) :
    Continues host (script host.settings s) { s with enumerated := false } s w
      w host.enumerate := by
  let begun : Link := { s with enumerated := false }
  let sized (head : List Byte) : Link :=
    { begun with ep0MaxPacket := ep0PacketSize (byteAt head 7) }
  let reset (head : List Byte) (speed : Speed) : Link :=
    { sized head with speed, address := 0 }
  let addressed (head : List Byte) (speed : Speed) : Link :=
    { reset head speed with address := 1 }
  refine continues_modify begun rfl ?_
  refine continues_request sized .none
    (fun head _ => ⟨{ head }, _, rfl⟩) fun head w _ taken => ?_
  dsimp only
  rw [byteAt_zeros]
  refine continues_modify (sized head) rfl ?_
  refine continues_reset (reset head) taken
    (fun speed => ⟨{ head, speed }, _, rfl⟩) fun speed w taken => ?_
  refine continues_modify (reset head speed) rfl ?_
  refine continues_pause (reset head speed) taken
    ⟨{ head, speed }, _, rfl⟩ fun w taken => ?_
  refine continues_command (addressed head speed) taken
    ⟨{ head, speed }, _, rfl⟩ fun w taken => ?_
  refine continues_modify (addressed head speed) rfl ?_
  refine continues_pause (addressed head speed) taken
    ⟨{ head, speed }, _, rfl⟩ fun w taken => ?_
  refine continues_request (fun _ => addressed head speed) taken
    (fun device _ => ⟨{ head, speed, device }, _, rfl⟩)
    fun device w _ taken => ?_
  refine continues_request (fun _ => addressed head speed) taken
    (fun configuration _ => ⟨{ head, speed, device, configuration }, _, rfl⟩)
    fun configuration w _ taken => ?_
  let located (endpoint : HidEndpoint) : Link :=
    { addressed head speed with hid := some endpoint, toggle := false }
  refine continues_checked (slice_answer configuration _) ?_
  refine continues_search located taken
    (fun endpoint =>
      ⟨{ head, speed, device, configuration, endpoint }, _, rfl⟩)
    fun endpoint taken => ?_
  refine continues_modify (located endpoint) rfl ?_
  refine continues_command { located endpoint with enumerated := true } taken
    ⟨{ head, speed, device, configuration, endpoint }, _, rfl⟩
    fun w taken => ?_
  exact .pure ⟨{ head, speed, device, configuration, endpoint },
    .complete taken⟩

end Following

/-! ## Where a script has led -/

section Ends

variable {s known : Link} {settings : Settings} {f : Findings}
  {w w' : World Register σ}

/-- What is known is what the last step has made of it. -/
theorem Taken.known_eq {taken : Script} (h : Taken host s w taken known w') :
    known = (taken.map Prod.snd).getLastD s := by
  cases h with
  | none => rfl
  | next after _ _ =>
    rw [List.map_append, List.map_singleton, List.getLastD_concat]

/-- Every step that has been taken has succeeded. -/
theorem Taken.succeeded {taken : Script} (h : Taken host s w taken known w')
    {entry : Step × Link} (hentry : entry ∈ taken) :
    ∃ before v v', entry.1.Succeeds host before v v' := by
  induction h with
  | none => exact absurd hentry List.not_mem_nil
  | next after _ hsucceeds ih =>
    rcases List.mem_append.1 hentry with hentry | hentry
    · exact ih hentry
    · obtain rfl := List.mem_singleton.1 hentry
      exact ⟨_, _, _, hsucceeds⟩

/-- Up to the last step, the device does not count as enumerated. -/
theorem unfinished_of_mem_dropLast {entry : Step × Link}
    (h : entry ∈ (script settings s f).dropLast) :
    entry.2.enumerated = false := by
  simp only [script, List.dropLast, List.mem_cons, List.not_mem_nil,
    or_false] at h
  rcases h with rfl | rfl | rfl | rfl | rfl | rfl | rfl | rfl <;> rfl

theorem Taken.unfinished {taken rest : Script} {step : Step} {after : Link}
    (h : Taken host { s with enumerated := false } w taken known w')
    (hscript : script settings s f = taken ++ (step, after) :: rest) :
    known.enumerated = false := by
  have htaken : ∀ entry ∈ taken, entry.2.enumerated = false := by
    intro entry hentry
    have hdropped : entry ∈ (script settings s f).dropLast := by
      rw [hscript, List.dropLast_append_cons]
      exact List.mem_append_left _ hentry
    exact unfinished_of_mem_dropLast hdropped
  have hknown : known ∈ { s with enumerated := false } :: taken.map Prod.snd :=
    h.known_eq ▸ List.getLastD_mem_cons
  obtain rfl | hknown := List.mem_cons.1 hknown
  · rfl
  · obtain ⟨entry, hentry, rfl⟩ := List.mem_map.1 hknown
    exact htaken entry hentry

/-- A device counts as enumerated if the whole script has been followed. -/
theorem Follows.enumerated_iff {r : Except UsbError Unit × Link}
    (h : Follows host { s with enumerated := false } (script settings s f) w r
      w') :
    r.2.enumerated = true ↔ r.1 = .ok () := by
  cases h with
  | complete htaken =>
    rw [htaken.known_eq]
    exact ⟨fun _ => rfl, fun _ => rfl⟩
  | failed hscript htaken _ =>
    have hunfinished := htaken.unfinished hscript
    simp [hunfinished]

end Ends

/-! ## Enumerations -/

/-- On whatever hardware and whatever was known before, an enumeration takes
the steps of its script and no others, up to the first that fails.  It comes
back with the error of that step, and with what the steps before it have found
out; the device counts as enumerated if none has failed.  Only if one of its
steps comes to no end does the enumeration come to none. -/
theorem enumeration_follows_script (host : Host σ) (s : Link) (patience : Nat)
    (w : World Register σ) :
    let begun := { s with enumerated := false }
    (∀ r w', host.enumerate.run.run s patience w = .ok r w' →
      (∃ f, Follows host begun (script host.settings s f) w r w') ∧
        (r.2.enumerated = true ↔ r.1 = .ok ())) ∧
      ∀ halt w', host.enumerate.run.run s patience w = .error halt w' →
        ∃ f, StopsIn host begun (script host.settings s f) w w' := by
  intro begun
  have h := continues_enumerate host s w
  constructor
  · intro r w' hrun
    obtain ⟨f, hfollows⟩ := h.ok patience r w' hrun
    exact ⟨⟨f, hfollows⟩, hfollows.enumerated_iff⟩
  · intro halt w' hrun
    exact h.error patience halt w' hrun

/-- The bench with the gamepad, which now stalls a request. -/
def benchStalling (code : Byte) :
    World Register (Bench.Environment × Bench.TickingClock) :=
  let environment := startedBench.env.1.mapController fun k =>
    { k with device.stallRequest := some code }
  ⟨(environment, startedBench.env.2), startedBench.log⟩

/-- A gamepad that is enumerated again is known as before.  If it stalls the
request that gives it an address, it is left at address 0 with nothing else
forgotten. -/
theorem gamepad_enumerated_again :
    let begun := { gamepadState with enumerated := false }
    (∃ f w', Follows benchHost begun (script {} gamepadState f) startedBench
        (.ok (), gamepadState) w') ∧
      ∃ f w', Follows benchHost begun (script {} gamepadState f)
        (benchStalling SetupPacket.setAddressCode)
        (.error (.transfer .status .stall), { begun with address := 0 }) w' := by
  intro begun
  have hsucceeds : (benchHost.enumerate.run.run gamepadState).returns 20
      startedBench (fun r _ => decide (r = (.ok (), gamepadState))) = true := by
    decide +kernel
  have hfails : (benchHost.enumerate.run.run gamepadState).returns 20
      (benchStalling SetupPacket.setAddressCode) (fun r _ =>
        decide (r = (.error (.transfer .status .stall),
          { begun with address := 0 }))) = true := by
    decide +kernel
  constructor
  · obtain ⟨r, w', hrun, hr⟩ := exists_of_returns hsucceeds
    rw [of_decide_eq_true hr] at hrun
    obtain ⟨⟨f, hfollows⟩, -⟩ :=
      (enumeration_follows_script benchHost gamepadState 20 startedBench).1 _ _
        hrun
    exact ⟨f, w', hfollows⟩
  · obtain ⟨r, w', hrun, hr⟩ := exists_of_returns hfails
    rw [of_decide_eq_true hr] at hrun
    obtain ⟨⟨f, hfollows⟩, -⟩ :=
      (enumeration_follows_script benchHost gamepadState 20 _).1 _ _ hrun
    exact ⟨f, w', hfollows⟩

end Enumeration

end UsbHost
