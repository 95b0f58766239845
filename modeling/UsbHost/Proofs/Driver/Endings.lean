import UsbHost.Proofs.Driver.Reachable
import UsbHost.Proofs.Host.Polling
import UsbHost.Proofs.Host.Waits

/-!
# Which operations end

An operation on the device ends as the exchanges do that it is made of: on any
bus it returns, unless it goes on emptying the receive FIFO for ever.

## Main results

* `lasts_request`, `lasts_resetBus`, `lasts_enumerate` — operations on the
  device.
* `resolves_readReport` — polls.
* `operations_end_or_drain` — which operations end.
-/

namespace UsbHost

open Run Bench

/-! ## Operations on the device -/

/-- From a state that satisfies `I` the operation resolves within `k` seconds,
in a state that satisfies it again and, if it succeeds, with a result that
satisfies `R`. -/
def HostM.Lasts {σ α : Type} (E : Event Register → Prop) (I : Link → Prop)
    (k : Nat) (p : HostM (σ × TickingClock) α) (R : α → Prop) : Prop :=
  ∀ s, I s → Takes E k (p.run.run s) fun r =>
    I r.2 ∧ ∀ a, r.1 = .ok a → R a

namespace HostM.Lasts

variable {σ α β : Type} {E : Event Register → Prop} {I : Link → Prop}
  {k l : Nat} {R : α → Prop}

theorem throw (e : UsbError) :
    Lasts E I k (MonadExcept.throw e : HostM (σ × TickingClock) α) R := by
  intro s hs
  rw [run_throw]
  exact .pure ⟨hs, fun _ => nofun⟩

/-- A step of the state, and what follows it. -/
theorem modify_bind {f : Link → Link} {g : Unit → HostM (σ × TickingClock) α}
    (h : ∀ s, I s → I (f s)) (hg : ∀ a, Lasts E I k (g a) R) :
    Lasts E I k ((modify f : HostM (σ × TickingClock) Unit) >>= g)
      R := by
  intro s hs
  rw [run_bind, run_modify, pure_bind]
  exact hg () (f s) (h s hs)

theorem modify {f : Link → Link} (h : ∀ s, I s → I (f s)) :
    Lasts E I 0 (modify f : HostM (σ × TickingClock) Unit) fun _ => True := by
  intro s hs
  rw [run_modify]
  exact .pure ⟨h s hs, fun _ _ => trivial⟩

theorem lift {p : Run Register (σ × TickingClock) α} (hp : Takes E k p R) :
    Lasts E I k (liftM p : HostM (σ × TickingClock) α) R := by
  intro s hs
  rw [run_lift]
  refine Takes.within (hp.bind (l := 0) fun a ha => .pure ⟨hs, ?_⟩) (by omega)
  intro b hb
  cases hb
  exact ha

theorem bind {p : HostM (σ × TickingClock) α}
    {f : α → HostM (σ × TickingClock) β} {S : β → Prop}
    (hp : Lasts E I k p R) (hf : ∀ a, R a → Lasts E I l (f a) S) :
    Lasts E I (l + k) (p >>= f) S := by
  intro s hs
  rw [run_bind]
  refine Takes.bind (hp s hs) fun r hr => ?_
  obtain ⟨r, s'⟩ := r
  cases r with
  | ok a => exact hf a (hr.2 a rfl) s' hr.1
  | error e => exact .pure ⟨hr.1, fun _ => nofun⟩

end HostM.Lasts

section Operations

variable {σ : Type} {bus : Bus Register σ} {spin : Bool}
  {E : Event Register → Prop}

/-- What a request reports to have moved lies in its buffer. -/
theorem lasts_request (setup : SetupPacket) (buffer : List Byte) :
    HostM.Lasts Event.Drains Link.Sized 40000000
      ((Host.ticking bus spin).request setup buffer)
      fun moved => moved.1 ≤ moved.2.length := by
  intro s hs
  unfold Host.request
  rw [HostM.run_bind, HostM.run_get, pure_bind]
  dsimp only
  rw [HostM.run_lift_bind]
  refine Takes.bind (l := 0) (takes_control hs.positive setup buffer) ?_
  intro moved ⟨hlength, hcount⟩
  cases hresult : moved.result with
  | error e => exact .pure ⟨hs, fun _ => nofun⟩
  | ok count =>
    refine .pure ⟨hs, fun r hr => ?_⟩
    cases hr
    exact hlength ▸ hcount count hresult

theorem lasts_delay {n : Nat} (hn : n ≤ 800) : HostM.Lasts E Link.Sized 1
    (liftM ((Host.ticking bus spin).core.delay (.ofMillis n)) :
      HostM (σ × TickingClock) Unit) fun _ => True :=
  .lift (.delay bus spin (nanos_ofMillis_le hn))

/-- The wait for the port resolves at its deadline, one pause later at the
latest. -/
theorem takes_awaitEnabled :
    Takes E 1 (Host.ticking bus spin).awaitEnabled fun _ => True := by
  intro n w hw
  have htimeout : (Duration.ofMillis 500).nanos ≤ 800000000 :=
    nanos_ofMillis_le (by decide)
  refine resolves_until bus spin htimeout hw fun e v hv => ?_
  refine (Resolves.of_yields (untimed_load bus spin _ v)).bind ?_
  intro port v₁ hv₁
  have hpoll : ∀ v₂ : World Register (σ × TickingClock),
      v₂.env.2 = v.env.2 →
      ((do
        if HostPort.enabled.get port then
          return .inr (some (.ofCode (HostPort.speed.get port).toNat))
        if ← (Host.ticking bus spin).core.expired ⟨some e⟩ then
          return .inr none
        (Host.ticking bus spin).core.delay (.ofMillis 10)
        return .inl ()) : Run Register (σ × TickingClock)
          (Unit ⊕ Option Speed)).Resolves E v₂
        (Awaits n e (fun _ w' => True ∧ Spare n w'.env.2) v) := by
    intro v₂ hv₂
    by_cases henabled : HostPort.enabled.get port = true
    · rw [if_pos henabled]
      exact .pure ⟨trivial, hv₂ ▸ hv.spare⟩
    · rw [if_neg henabled]
      refine resolves_expired bus spin hv hv₂ (fun v₃ hspare => ?_) ?_
      · exact .pure ⟨trivial, hspare⟩
      · intro v₃ hclock hearly
        exact resolves_pause bus spin hv hclock hearly (by decide)
  by_cases hchanged : HostPort.enableChanged.get port = true
  · rw [if_pos hchanged]
    refine (Resolves.of_yields (untimed_acknowledgePort bus spin _ v₁)).bind ?_
    exact fun _ v₂ hv₂ => hpoll v₂ (hv₂.trans hv₁)
  · rw [if_neg hchanged]
    exact hpoll v₁ hv₁

theorem lasts_resetBus : HostM.Lasts E Link.Sized 4
    (Host.ticking bus spin).resetBus fun _ => True := by
  have hconnected : Takes E 0 (Host.ticking bus spin).isConnected
      fun _ => True := (untimed_inspect bus spin _ _).takes
  have hacknowledge : Takes E 0
      ((Host.ticking bus spin).core.acknowledgePort FlagSet.all)
      fun _ => True := (untimed_acknowledgePort bus spin _).takes
  have hupdate : ∀ change, Takes E 0
      ((Host.ticking bus spin).core.updatePort change) fun _ => True :=
    fun change => (untimed_updatePort bus spin change).takes
  unfold Host.resetBus
  refine .bind (l := 4) (.lift hconnected) fun connected _ => ?_
  cases connected with
  | false => exact .throw _
  | true =>
    refine .bind (l := 4) (.lift hacknowledge) fun _ _ => ?_
    refine .bind (l := 3) (lasts_delay (by decide)) fun _ _ => ?_
    refine .bind (l := 3) (.lift (hupdate _)) fun _ _ => ?_
    refine .bind (l := 2) (lasts_delay (by decide)) fun _ _ => ?_
    refine .bind (l := 2) (.lift (hupdate _)) fun _ _ => ?_
    refine .bind (l := 1) (lasts_delay (by decide)) fun _ _ => ?_
    refine .bind (l := 0) (.lift takes_awaitEnabled) fun speed _ => ?_
    cases speed with
    | none => exact .throw _
    | some speed => exact .modify fun s _ => .inl rfl

/-- Enumeration is over in time, or receives without end. -/
theorem lasts_enumerate : HostM.Lasts Event.Drains Link.Sized 200000006
    (Host.ticking bus spin).enumerate fun _ => True := by
  have hslice : ∀ count (buffer : List Byte), count ≤ buffer.length →
      Takes Event.Drains 0 (Run.slice buffer 0 count :
        Run Register (σ × TickingClock) (List Byte)) fun _ => True := by
    intro count buffer hcount
    rw [slice_eq (Nat.zero_le _) hcount]
    exact .pure trivial
  unfold Host.enumerate
  -- `l` is the time that the steps after this one may take.
  refine .modify_bind (fun _ h => h) fun _ => ?_
  refine .bind (l := 160000006) (lasts_request _ _) fun read _ => ?_
  refine .modify_bind (fun s _ => ep0PacketSize_legal _ s) fun _ => ?_
  refine .bind (l := 160000002) lasts_resetBus fun _ _ => ?_
  refine .modify_bind (fun s _ => ep0PacketSize_legal _ s) fun _ => ?_
  refine .bind (l := 160000001) (lasts_delay (by decide)) fun _ _ => ?_
  refine .bind (l := 120000001) (lasts_request _ _) fun _ _ => ?_
  refine .modify_bind (fun _ h => h) fun _ => ?_
  refine .bind (l := 120000000) (lasts_delay (by decide)) fun _ _ => ?_
  refine .bind (l := 80000000) (lasts_request _ _) fun _ _ => ?_
  refine .bind (l := 40000000) (lasts_request _ _) fun read hread => ?_
  refine .bind (l := 40000000) (.lift (hslice _ _ hread)) ?_
  intro configuration _
  cases HidEndpoint.find? configuration with
  | none => exact .throw _
  | some hid =>
    refine .modify_bind (fun _ h => h) fun _ => ?_
    refine .bind (l := 0) (lasts_request _ _) fun _ _ => ?_
    exact .modify fun _ h => h

/-! ## Polls -/

/-- A poll resolves as its exchange does. -/
theorem resolves_readReport {s : Link} {report : List Byte}
    {P Q : World Register (σ × TickingClock) → Prop}
    {w : World Register (σ × TickingClock)}
    (hidle : s.pollable? = none → Q w)
    (htransfer : ∀ hid, ((Host.ticking bus spin).transfer s
      (Host.pollExchange s hid) report
      (min report.length hid.maxPacketSize.toNat)).Resolves E w fun _ => P)
    (hP : ∀ w', P w' → Q w') :
    (((Host.ticking bus spin).readReport report).run s).Resolves E w
      fun _ => Q := by
  rw [Host.run_readReport]
  cases hs : s.pollable? with
  | none => exact .pure (hidle hs)
  | some hid =>
    refine (htransfer hid).bind fun moved w' hw' => ?_
    cases moved.result with
    | ok count => exact .pure (hP w' hw')
    | error cause => exact .pure (hP w' hw')

/-! ## A core that never says that nothing is left -/

/-- Each channel says that its exchange has succeeded, and there is always
something in the receive FIFO. -/
structure Bus.Floods {σ : Type} (bus : Bus Register σ) : Prop where
  received : ∀ b, (bus.read .interruptStatus b).1.SaysReceived
  completed : ∀ b c, ((Register.channel c .interrupts).decode
    (bus.read (.channel c .interrupts) b).1).contains
      ChannelInterrupts.transferComplete = true

/-- What receives does not end where the receive FIFO is never empty. -/
theorem resolves_transfer_flooded (hbus : bus.Floods) (s : Link)
    {x : Exchange} (hx : x.direction = .toHost) (buffer : List Byte)
    (length : Nat) {w : World Register (σ × TickingClock)}
    (hw : Spare 5 w.env.2) :
    ((Host.ticking bus spin).transfer s x buffer length).Resolves Event.Drains w
      fun _ _ => False := by
  have hreceives : ¬ x.direction = .toDevice := by
    rw [hx]
    exact nofun
  refine resolves_transfer hw (fun v hv => ?_) fun hsends =>
    absurd hsends hreceives
  have htimeout : (Duration.ofMillis 50).nanos ≤ 800000000 :=
    nanos_ofMillis_le (by decide)
  refine resolves_until bus spin htimeout hv fun e v hv => ?_
  have hcompleted : ((Host.ticking bus spin).core.load
      (.channel x.channel .interrupts)).Yields True v fun interrupts _ =>
        interrupts.ending? = some (.ok ()) :=
    .of_eq (fun _ => rfl) (if_pos (hbus.completed _ _))
  refine (Resolves.of_yields hcompleted).bind fun interrupts v₁ hending => ?_
  rw [hending, hx]
  refine (resolves_drain _ _ v₁).bind fun received v₂ ⟨_, b, hempty⟩ => ?_
  exact absurd (hbus.received b) hempty

/-! ## Which operations end -/

/-- On whatever bus, with a clock that moves by a microsecond at each reading,
an exchange that sends returns.  An exchange that receives, a poll, a control
transfer and enumeration return too, unless they go on emptying the receive
FIFO for ever: this is the one wait of the driver that no deadline ends.  It
does happen: where the core never says that the FIFO is empty, no exchange that
receives returns, and no poll. -/
theorem operations_end_or_drain (bus : Bus Register σ) (spin : Bool)
    {w : World Register (σ × TickingClock)}
    (hw : Spare 1000000000 w.env.2) :
    let host := Host.ticking bus spin
    (∀ s x buffer length, x.direction = .toDevice →
      (host.transfer s x buffer length).Returns w) ∧
    (∀ s x buffer length, (host.transfer s x buffer length).Resolves
      Event.Drains w fun _ _ => True) ∧
    (∀ s report, ((host.readReport report).run s).Resolves
      Event.Drains w fun _ _ => True) ∧
    (∀ s setup buffer, s.Reachable → (host.control s setup buffer).Resolves
      Event.Drains w fun _ _ => True) ∧
    (∀ s, s.Reachable → (host.enumerate.run.run s).Resolves
      Event.Drains w fun _ _ => True) ∧
    (bus.Floods →
      (∀ s x buffer length, x.direction = .toHost →
        (host.transfer s x buffer length).Persists Event.Drains w) ∧
      ∀ s report, s.pollable?.isSome = true →
        ((host.readReport report).run s).Persists Event.Drains w) := by
  have htransfer : ∀ s x buffer length,
      ((Host.ticking bus spin).transfer s x buffer length).Resolves x.Stalls w
        fun _ _ => True := fun s x buffer length =>
    (takes_transfer s x buffer length 0 w (hw.fewer (by decide))).mono
      fun _ _ _ => trivial
  have hreceives : ∀ s x buffer length,
      ((Host.ticking bus spin).transfer s x buffer length).Resolves Event.Drains
        w fun _ _ => True := fun s x buffer length =>
    (htransfer s x buffer length).weaken fun _ h => h.2
  refine ⟨?_, hreceives, ?_, ?_, ?_, ?_⟩
  · intro s x buffer length hx
    have hnever : ∀ e, x.Stalls e → False := by
      intro e he
      rw [Exchange.Stalls, hx] at he
      exact nomatch he.1
    obtain ⟨moved, w', enough, hrun, -⟩ :=
      ((htransfer s x buffer length).weaken hnever).exists_run
    exact ⟨enough, moved, w', hrun enough (Nat.le_refl enough)⟩
  · intro s report
    exact resolves_readReport (fun _ => trivial) (fun hid => hreceives _ _ _ _)
      fun _ h => h
  · intro s setup buffer hs
    exact (takes_control hs.sized.positive setup buffer 0 w
      (hw.fewer (by decide))).mono fun _ _ _ => trivial
  · intro s hs
    exact (lasts_enumerate s hs.sized 0 w (hw.fewer (by decide))).mono
      fun _ _ _ => trivial
  · intro hbus
    have hflooded : ∀ s x buffer length, x.direction = .toHost →
        ((Host.ticking bus spin).transfer s x buffer length).Resolves
          Event.Drains w fun _ _ => False := fun s x buffer length hx =>
      resolves_transfer_flooded hbus s hx buffer length (hw.fewer (by decide))
    refine ⟨?_, ?_⟩
    · exact fun s x buffer length hx => (hflooded s x buffer length hx).persists
    · intro s report hs
      refine Resolves.persists (resolves_readReport (fun hnone => ?_)
        (fun hid => hflooded _ _ _ _ rfl) fun _ h => h)
      rw [hnone] at hs
      exact nomatch hs

/-- Every exchange succeeds, and something has always been received. -/
def floodedBus : Bus Register Unit where
  read r b :=
    match r with
    | .interruptStatus => (CoreInterrupts.rxFifoLevel.bits, b)
    | .channel _ .interrupts => (ChannelInterrupts.transferComplete.bits, b)
    | _ => (0, b)
  write _ _ b := b

theorem floodedBus_floods : floodedBus.Floods := by
  have hlevel : FlagSet.contains (FlagSet.truncate
      CoreInterrupts.rxFifoLevel.bits) CoreInterrupts.rxFifoLevel = true := by
    decide
  have hcomplete : FlagSet.contains (FlagSet.truncate
      ChannelInterrupts.transferComplete.bits)
      ChannelInterrupts.transferComplete = true := by
    decide
  exact ⟨fun _ => hlevel, fun _ _ => hcomplete⟩

/-- With the clock at its start, a poll of a gamepad never returns there. -/
theorem flooded_poll_persists :
    let hid : HidEndpoint :=
      { number := 1, maxPacketSize := 32, interface := 0 }
    let s : Link := { address := 1, hid := some hid, enumerated := true }
    let w : World Register (Unit × TickingClock) := ⟨((), {}), []⟩
    Spare 1000000000 w.env.2 ∧ floodedBus.Floods ∧
      s.pollable?.isSome = true ∧
      (((Host.ticking floodedBus false).readReport
        (List.replicate 20 0)).run s).Persists Event.Drains w := by
  intro hid s w
  have hspare : Spare 1000000000 w.env.2 := ⟨by decide, by decide⟩
  have hpollable : s.pollable?.isSome = true := by decide
  obtain ⟨-, -, -, -, -, hfloods⟩ :=
    operations_end_or_drain floodedBus false hspare
  exact ⟨hspare, floodedBus_floods, hpollable,
    (hfloods floodedBus_floods).2 s _ hpollable⟩

end Operations

end UsbHost
