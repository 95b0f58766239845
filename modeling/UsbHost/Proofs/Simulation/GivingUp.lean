import UsbHost.Proofs.Host.Waits
import UsbHost.Proofs.Simulation.Outcome

/-!
# Giving up on a silent device

Whether the wait for a device that says nothing comes to an end is a matter of
the clock.  A clock that moves at every reading ends it, as long as the deadline
is a time that the clock can show.

## Main results

* `yields_await_silent` — the wait for a response that never comes.
* `yields_transfer_ticking` — an IN exchange comes out as `outcome` says, and
  comes to an end whatever the device does.
-/

namespace UsbHost.Simulation

open Run UsbHost.Bench

/-! ## The clock -/

/-- The clock moves, and after `readings` more readings the end of a wait of
this length is still a time that it can show. -/
structure Sees (readings : Nat) (timeout : Duration) (c : TickingClock) :
    Prop where
  moves : 0 < c.tick.nanos
  inRange : c.now.nanos + readings * c.tick.nanos + timeout.nanos ≤
    Duration.longest.nanos

section Clock

variable {spin : Bool} {readings : Nat} {timeout : Duration} {c : TickingClock}

theorem Sees.ticked (h : Sees (readings + 1) timeout c) :
    Sees readings timeout (ticked c) := by
  obtain ⟨hmoves, hrange⟩ := h
  refine ⟨hmoves, ?_⟩
  rw [Nat.succ_mul] at hrange
  rw [nanos_ticked]
  show _ + readings * c.tick.nanos + _ ≤ _
  omega

theorem Sees.fewer (h : Sees (readings + 1) timeout c) :
    Sees readings timeout c := by
  obtain ⟨hmoves, hrange⟩ := h
  refine ⟨hmoves, ?_⟩
  rw [Nat.succ_mul] at hrange
  omega

end Clock

/-! ## The wait -/

section Ticking

variable {spin : Bool} {settings : Settings} {readings : Nat}
  {timeout : Duration} {c : Channel} {s : ChannelState} {k : Controller}
  {w : World Register (Controller × TickingClock)}
  {x : Exchange} {link : Link} {buffer : List Byte} {room : Nat}

/-- The host of a simulated core with a ticking clock. -/
abbrev tickingHost (spin : Bool) (settings : Settings) :
    Host (Controller × TickingClock) :=
  hostOn (TickingClock.clock spin) settings

/-- A deadline that the clock can show comes. -/
theorem yields_deadlineAfter_ticking (hsees : Sees 1 timeout w.env.2) :
    ((tickingHost spin settings).core.deadlineAfter timeout).Yields True w
      fun deadline w' => (∃ e, deadline = ⟨some e⟩) ∧
        w'.env = (w.env.1, ticked w.env.2) := by
  have hrange := hsees.inRange
  have hticked := nanos_ticked w.env.2
  refine (yields_deadlineAfter Controller.bus spin (by omega)).mono ?_
  intro deadline w' ⟨⟨e, hdeadline, _⟩, henv⟩
  exact ⟨⟨e, hdeadline⟩, henv⟩

/-- Accesses take no time. -/
theorem yields_access {α : Type}
    {p : Run Register (Controller × TickingClock) α}
    {Q : α → Controller → Prop} {P : TickingClock → Prop}
    (hQ : Leads True p w.env.1 Q) (hp : Untimed p) (hP : P w.env.2) :
    p.Yields True w fun a w' => Q a w'.env.1 ∧ P w'.env.2 :=
  ((hQ w rfl).and (hp w)).mono fun _ _ ⟨hQ, hclock⟩ => ⟨hQ, hclock ▸ hP⟩

/-- The interrupts of a channel. -/
theorem yields_load_interrupts {P : TickingClock → Prop}
    (hk : Beside c s k w.env.1) (hP : P w.env.2) :
    ((tickingHost spin settings).core.load
      (.channel c .interrupts)).Yields True w fun interrupts w' =>
        interrupts = FlagSet.truncate s.interrupts ∧ Beside c s k w'.env.1 ∧
          P w'.env.2 := by
  have hload := untimed_load Controller.bus spin (.channel c .interrupts)
  refine (yields_access (leads_load (Q := fun interrupts k' =>
    interrupts = FlagSet.truncate s.interrupts ∧ Beside c s k k') ?_)
    hload hP).mono fun _ _ h => ⟨h.1.1, h.1.2, h.2⟩
  rw [hk.read_channel.2]
  exact ⟨rfl, hk⟩

/-- Whatever it was doing, a channel that is quiesced is at rest, after one
reading of the clock at most. -/
theorem yields_quiesce_ticking (hk : Beside c s k w.env.1)
    (hsees : Sees (readings + 1) timeout w.env.2) :
    ((tickingHost spin settings).quiesce c).Yields True w fun _ w' =>
      Rests c k w'.env.1 ∧ Sees readings timeout w'.env.2 := by
  have hclear : ∀ {s' : ChannelState} {w : World Register _},
      s'.enabled = false → Beside c s' k w.env.1 →
      Sees readings timeout w.env.2 →
      ((tickingHost spin settings).core.storeOnes
        (.channel c .interrupts)).Yields True w fun _ w' =>
          Rests c k w'.env.1 ∧ Sees readings timeout w'.env.2 :=
    fun hs hk hsees => yields_access (leads_storeOnes (hk.cleared hs))
      (untimed_storeOnes Controller.bus spin _) hsees
  refine (yields_access (leads_load (Q := fun chars k' =>
    ChannelCharacteristics.enable.get chars = s.enabled ∧ Beside c s k k') ?_)
    (untimed_load Controller.bus spin _) hsees).bind ?_
  · rw [hk.read_channel.1]
    exact ⟨BitField.get_set _ _ _, hk⟩
  intro chars w₁ ⟨⟨henable, hk₁⟩, hsees₁⟩
  rw [henable]
  cases hs : s.enabled with
  | false => exact hclear hs hk₁ hsees₁.fewer
  | true =>
    obtain ⟨s', hdisabled, hhalted, hk₂⟩ := hk₁.disabled hs chars
    refine (yields_access (leads_store (Q := fun _ k' => Beside c s' k k')
      hk₂) (untimed_store Controller.bus spin _ _) hsees₁).bind ?_
    intro _ w₂ ⟨hk₂, hsees₂⟩
    refine (Machine.yields_waitUntil _ (P := fun w =>
      Beside c s' k w.env.1 ∧ Sees readings timeout w.env.2) ?_ ?_).bind ?_
    · refine (yields_now Controller.bus spin).mono fun _ w' ⟨_, henv⟩ => ?_
      rw [henv]
      exact ⟨hk₂, hsees₂.ticked⟩
    · intro w ⟨hk, hsees⟩
      refine (yields_load_interrupts hk hsees).bind ?_
      intro interrupts w' ⟨hi, hk', hsees'⟩
      rw [hi, hhalted]
      exact .pure ⟨contains_truncate_or _ _, hk', hsees'⟩
    · exact fun _ w' ⟨hk, hsees⟩ => hclear hdisabled hk hsees

/-- A wait for a response that never comes is given up at its deadline. -/
theorem yields_await_silent {requested : Nat} (hk : Beside c s k w.env.1)
    (hx : x.channel = c) (hs : s.interrupts = 0)
    (hsees : Sees 1 settings.transferTimeout w.env.2) :
    ((tickingHost spin settings).await x requested buffer room).Yields True w
      fun _ _ => True := by
  subst hx
  refine (yields_deadlineAfter_ticking hsees).bind ?_
  rintro _ ⟨_, log⟩ ⟨⟨e, rfl⟩, rfl⟩
  refine .loop (fun _ w => Beside x.channel s k w.env.1 ∧
    0 < w.env.2.tick.nanos) (fun _ w => e.nanos - w.env.2.now.nanos) ?_
    ⟨hk, hsees.moves⟩
  intro _ w₁ ⟨hk₁, hmoves⟩
  refine (yields_load_interrupts (P := (· = w₁.env.2)) hk₁ rfl).bind ?_
  intro interrupts w₂ ⟨hi, hk₂, hclock⟩
  have hquiet : ChannelInterrupts.ending? (FlagSet.truncate 0) = none := by
    decide
  rw [hi, hs, hquiet]
  refine (yields_expired Controller.bus spin).bind ?_
  rintro _ ⟨_, log⟩ ⟨rfl, rfl⟩
  rw [hclock]
  by_cases hreached : e ≤ (ticked w₁.env.2).now
  · rw [decide_eq_true hreached, if_pos rfl]
    have hquiesce : Leads True
        ((tickingHost spin settings).quiesce x.channel) w₂.env.1
        fun _ _ => True := leads_quiesce hk₂ fun _ _ => trivial
    refine (hquiesce ⟨(w₂.env.1, ticked w₁.env.2), log⟩ rfl).bind ?_
    exact fun _ _ _ => .pure trivial
  · rw [decide_eq_false hreached]
    exact .pure ⟨⟨hk₂, hmoves⟩, fun _ => nearer_of_not_reached hmoves hreached⟩

/-- An IN exchange with a device that says nothing comes to an end. -/
theorem yields_transfer_silent {length : Nat}
    (hroom : min length buffer.length = room) (hx : x.direction = .toHost)
    (htype : x.type ≠ .control)
    (hsilent : w.env.1.answer (x.transaction link buffer room) = .silent)
    (hsees : Sees 2 settings.transferTimeout w.env.2) :
    ((tickingHost spin settings).transfer link x buffer length).Yields True w
      fun _ _ => True := by
  have hin : ¬ (x.direction = .toDevice ∧ 0 < x.requested link room) := by
    rw [hx]
    exact fun hout => nomatch hout.1
  have hle : room ≤ buffer.length := hroom ▸ Nat.min_le_right _ _
  have hload := untimed_load Controller.bus spin
  have hstore := untimed_store Controller.bus spin
  have hclear := untimed_storeOnes Controller.bus spin
  have hpush := untimed_launch Controller.bus spin x link hle
  unfold Host.transfer
  rw [hroom]
  refine (yields_quiesce_ticking (.refl x.channel w.env.1) hsees).bind ?_
  intro _ w₁ ⟨⟨s₁, hs₁, _, hk₁⟩, hsees₁⟩
  simp only [if_neg htype]
  refine (yields_access (leads_store (Q := fun _ k' => Beside x.channel
    { s₁ with split := 0 } w.env.1 k') ?_) (hstore _ _) hsees₁).bind ?_
  · exact (hk₁.counted _).updateChannel ({ · with split := 0 })
  intro _ w₂ ⟨hk₂, hsees₂⟩
  have hframe : Beside x.channel { s₁ with split := 0 } w.env.1
      (w₂.env.1.read .frameNumber).2 := hk₂.framed _
  refine (yields_access (leads_load (Q := fun _ k' => Beside x.channel
    { s₁ with split := 0 } w.env.1 k') hframe) (hload _) hsees₂).bind ?_
  intro frame w₃ ⟨hk₃, hsees₃⟩
  refine (yields_access (leads_storeOnes (Q := fun _ k' => Rests x.channel
    w.env.1 k') (hk₃.cleared hs₁)) (hclear _) hsees₃).bind ?_
  intro _ w₄ ⟨⟨s₄, _, hi₄, hk₄⟩, hsees₄⟩
  simp only [if_neg hin, pure_bind, if_true]
  have hlaunch : Leads True ((tickingHost spin settings).launch x
      (x.characteristics link (frame.getLsbD 0)) (x.requested link room) buffer)
      w₄.env.1 fun _ k' => ∃ s, s.interrupts = 0 ∧ Beside x.channel s
        (w.env.1.sent (x.transaction link buffer room)) k' := by
    refine leads_launch hk₄ hle fun s' k' hs' hk' => ⟨_, ?_, hk'⟩
    rw [hsilent]
    show s'.interrupts ||| (Controller.raised .silent).bits = 0
    rw [hs', hi₄]
    rfl
  refine (yields_access hlaunch (hpush _) hsees₄).bind ?_
  intro _ w₅ ⟨⟨s₅, hi₅, hk₅⟩, hsees₅⟩
  exact yields_await_silent hk₅ rfl hi₅ hsees₅

/-- An IN exchange comes out as `outcome` says, and if its deadline can be seen
it comes to an end whatever the device does. -/
theorem yields_transfer_ticking {T : Prop} {length : Nat}
    (hroom : min length buffer.length = room) (hx : x.direction = .toHost)
    (htype : x.type ≠ .control)
    (hsees : T → Sees 2 settings.transferTimeout w.env.2) :
    ((tickingHost spin settings).transfer link x buffer length).Yields T w
      fun moved w' => moved = (w.env.1.outcome link x buffer room).1 ∧
        Rests x.channel (w.env.1.outcome link x buffer room).2 w'.env.1 := by
  have houtcome : Leads False
      ((tickingHost spin settings).transfer link x buffer length) w.env.1 _ :=
    leads_transfer hroom False.elim
  refine ⟨(houtcome w rfl).1, fun ht => ?_⟩
  by_cases hsilent : w.env.1.answer (x.transaction link buffer room) = .silent
  · exact (yields_transfer_silent hroom hx htype hsilent (hsees ht)).2 trivial
  · have hfits : ¬ w.env.1.Starved x link room :=
      fun hstarved => nomatch hx.symm.trans hstarved.1.1
    have hanswered : Leads True
        ((tickingHost spin settings).transfer link x buffer length) w.env.1 _ :=
      leads_transfer hroom fun _ => ⟨hfits, hsilent⟩
    exact (hanswered w rfl).2 trivial

end Ticking

end UsbHost.Simulation
