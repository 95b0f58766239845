import UsbHost.Bench.Environment
import UsbHost.Proofs.Machine.Resolves

/-!
# Waits on a ticking clock

A clock that moves at every reading ends every wait that watches it, on any bus.
It must not have come to the last time it can show, from where it does not move
on; so a wait is followed together with the time that is left.  Times are
counted in seconds here, which is generous for the waits of a driver.

## Main results

* `yields_deadlineAfter`, `yields_expired`, `yields_delay` — what is made of the
  clock's readings.
* `Takes.bind` — how long a sequence takes.
* `resolves_until` — a loop with a deadline.
* `Takes.waitUntil`, `Takes.delay` — waits and delays.
-/

namespace UsbHost.Bench

open Run

variable {ρ σ α β : Type} {E : Event ρ → Prop}

/-! ## The clock -/

/-- The clock after a reading. -/
def ticked (c : TickingClock) : TickingClock :=
  { c with now := c.now.addCapped c.tick }

theorem nanos_ticked (c : TickingClock) :
    (ticked c).now.nanos =
      min (c.now.nanos + c.tick.nanos) Duration.longest.nanos :=
  Duration.nanos_addCapped _ _

theorem nanos_ticked_of_le {c : TickingClock} (htick : c.tick.nanos = 1000)
    (h : c.now.nanos + 1000 ≤ Duration.longest.nanos) :
    (ticked c).now.nanos = c.now.nanos + 1000 := by
  rw [nanos_ticked, htick]
  exact Nat.min_eq_left h

/-- A deadline that has not been reached is nearer than before. -/
theorem nearer_of_not_reached {c : TickingClock} {e : Duration}
    (hmoves : 0 < c.tick.nanos) (h : ¬ e ≤ (ticked c).now) :
    e.nanos - (ticked c).now.nanos < e.nanos - c.now.nanos := by
  have hlongest := e.le_longest
  rw [Duration.le_def] at h hlongest
  rw [nanos_ticked] at h ⊢
  omega

/-- The clock moves by a microsecond at each reading, and it can still show the
times of the next `n` seconds. -/
structure Spare (n : Nat) (c : TickingClock) : Prop where
  tick : c.tick.nanos = 1000
  left : c.now.nanos + n * 1000000000 ≤ Duration.longest.nanos

/-- A wait until `e` goes on: after it, even if its last round takes a moment,
`n` seconds are left. -/
structure Waiting (n : Nat) (e : Duration) (c : TickingClock) : Prop where
  tick : c.tick.nanos = 1000
  now : c.now.nanos ≤ e.nanos + 50000000
  left : e.nanos + 100000000 + n * 1000000000 ≤ Duration.longest.nanos

section Clock

variable {n m : Nat} {e : Duration} {c : TickingClock}

theorem Spare.fewer (h : Spare n c) (hm : m ≤ n) : Spare m c := by
  have hless := Nat.mul_le_mul_right 1000000000 hm
  exact ⟨h.tick, Nat.le_trans (Nat.add_le_add_left hless _) h.left⟩

namespace Waiting

theorem spare (h : Waiting n e c) : Spare n c := by
  obtain ⟨htick, hnow, hleft⟩ := h
  exact ⟨htick, by omega⟩

theorem nanos_ticked (h : Waiting n e c) :
    (ticked c).now.nanos = c.now.nanos + 1000 := by
  obtain ⟨htick, hnow, hleft⟩ := h
  exact nanos_ticked_of_le htick (by omega)

/-- The last reading of a wait. -/
theorem last (h : Waiting n e c) : Spare n (ticked c) := by
  have hticked := h.nanos_ticked
  obtain ⟨htick, hnow, hleft⟩ := h
  exact ⟨htick, by omega⟩

/-- A reading before the deadline. -/
theorem again (h : Waiting n e c) (he : ¬ e ≤ (ticked c).now) :
    c.now.nanos < (ticked c).now.nanos ∧ Waiting n e (ticked c) := by
  have hticked := h.nanos_ticked
  obtain ⟨htick, hnow, hleft⟩ := h
  rw [Duration.le_def] at he
  exact ⟨by omega, htick, by omega, hleft⟩

/-- A reading before the deadline, and a pause after it. -/
theorem paused (h : Waiting n e c) (he : ¬ e ≤ (ticked c).now)
    {c' : TickingClock} (htick : c'.tick.nanos = 1000)
    (hfrom : (ticked c).now.nanos ≤ c'.now.nanos)
    (hto : c'.now.nanos ≤ (ticked c).now.nanos + 50000000) :
    c.now.nanos < c'.now.nanos ∧ Waiting n e c' := by
  have hlater := (h.again he).1
  rw [Duration.le_def] at he
  exact ⟨by omega, htick, by omega, h.left⟩

end Waiting

end Clock

/-! ## Readings -/

/-- A bus and a ticking clock. -/
abbrev tickingMachine (bus : Bus ρ σ) (spin : Bool) :
    Machine ρ (σ × TickingClock) :=
  .ofParts bus (TickingClock.clock spin)

section Readings

variable (bus : Bus ρ σ) (spin : Bool) {w : World ρ (σ × TickingClock)}

/-- A reading of the clock changes the clock alone. -/
theorem yields_now :
    (tickingMachine bus spin).now.Yields True w fun t w' =>
      t = (ticked w.env.2).now ∧ w'.env = (w.env.1, ticked w.env.2) :=
  .of_eq (fun _ => rfl) ⟨rfl, rfl⟩

/-- A deadline that the clock can show comes. -/
theorem yields_deadlineAfter {timeout : Duration}
    (h : (ticked w.env.2).now.nanos + timeout.nanos ≤
      Duration.longest.nanos) :
    ((tickingMachine bus spin).deadlineAfter timeout).Yields True w
      fun deadline w' => (∃ e, deadline = ⟨some e⟩ ∧
          e.nanos = (ticked w.env.2).now.nanos + timeout.nanos) ∧
        w'.env = (w.env.1, ticked w.env.2) := by
  obtain ⟨e, he⟩ : ∃ e, (ticked w.env.2).now.add? timeout = some e := by
    refine Option.ne_none_iff_exists'.1 fun hnone => ?_
    rw [Duration.add?_eq_none_iff] at hnone
    omega
  have hsum := Duration.add?_eq_some_iff.1 he
  refine (yields_now bus spin).bind fun t w' ⟨ht, henv⟩ => ?_
  refine .pure ⟨⟨e, ?_, ?_⟩, henv⟩
  · rw [ht, ← he]
    rfl
  · exact hsum.symm

theorem yields_expired {e : Duration} :
    ((tickingMachine bus spin).expired ⟨some e⟩).Yields True w
      fun late w' => late = decide (e ≤ (ticked w.env.2).now) ∧
        w'.env = (w.env.1, ticked w.env.2) := by
  refine (yields_now bus spin).bind fun t w' ⟨ht, henv⟩ => .pure ⟨?_, henv⟩
  rw [ht]
  rfl

/-- A delay is over no more than two readings late. -/
theorem yields_delay {d : Duration} (htick : w.env.2.tick.nanos = 1000)
    (h : w.env.2.now.nanos + d.nanos + 2000 ≤ Duration.longest.nanos) :
    ((tickingMachine bus spin).delay d).Yields True w fun _ w' =>
      w'.env.2.tick.nanos = 1000 ∧ w.env.2.now.nanos ≤ w'.env.2.now.nanos ∧
        w'.env.2.now.nanos ≤ w.env.2.now.nanos + d.nanos + 2000 := by
  cases spin with
  | false =>
    have hsum := Duration.nanos_addCapped w.env.2.now d
    refine .of_eq (fun _ => rfl) ⟨htick, ?_, ?_⟩
    · show _ ≤ (w.env.2.now.addCapped d).nanos
      omega
    · show (w.env.2.now.addCapped d).nanos ≤ _
      omega
  | true =>
    have hstart := nanos_ticked_of_le htick (by omega)
    have hfinish : ((ticked w.env.2).now.addCapped d).nanos =
        (ticked w.env.2).now.nanos + d.nanos := by
      rw [Duration.nanos_addCapped]
      exact Nat.min_eq_left (by omega)
    refine (yields_now bus true).bind fun t w₁ ⟨ht, henv⟩ => ?_
    subst ht
    refine .loop (fun _ v => v.env.2.tick.nanos = 1000 ∧
      w.env.2.now.nanos ≤ v.env.2.now.nanos ∧
      v.env.2.now.nanos ≤ w.env.2.now.nanos + d.nanos + 1000)
      (fun _ v => w.env.2.now.nanos + d.nanos + 1000 - v.env.2.now.nanos)
      (fun _ v hv => ?_) ?_
    · obtain ⟨hvtick, hfrom, hto⟩ := hv
      have hnext := nanos_ticked_of_le hvtick (by omega)
      refine (yields_now bus true).bind fun t v' ⟨ht, hv'⟩ => .pure ?_
      subst ht
      by_cases hearly :
          (ticked v.env.2).now < (ticked w.env.2).now.addCapped d
      · rw [if_pos hearly]
        rw [Duration.lt_def] at hearly
        simp only [Round, hv']
        exact ⟨⟨hvtick, by omega, by omega⟩, fun _ => by omega⟩
      · rw [if_neg hearly]
        simp only [Round, hv']
        exact ⟨hvtick, by omega, by omega⟩
    · simp only [henv]
      exact ⟨htick, by omega, by omega⟩

end Readings

/-! ## Programs that take no time -/

/-- The program returns and leaves the clock as it is. -/
def Untimed (p : Run ρ (σ × TickingClock) α) : Prop :=
  ∀ w, p.Yields True w fun _ w' => w'.env.2 = w.env.2

namespace Untimed

theorem pure (a : α) : Untimed (Pure.pure a : Run ρ (σ × TickingClock) α) :=
  fun _ => .pure rfl

theorem bind {p : Run ρ (σ × TickingClock) α}
    {f : α → Run ρ (σ × TickingClock) β} (hp : Untimed p)
    (hf : ∀ a, Untimed (f a)) : Untimed (p >>= f) :=
  fun w => (hp w).bind fun a v hv =>
    (hf a v).mono fun _ _ hw => hw.trans hv

theorem forM {xs : List β} {f : β → Run ρ (σ × TickingClock) Unit}
    (h : ∀ x, Untimed (f x)) : Untimed (xs.forM f) := by
  induction xs with
  | nil => exact .pure ()
  | cons x rest ih => exact (h x).bind fun _ => ih

end Untimed

/-! ## Programs that take a while -/

/-- The program resolves within `k` seconds, with a result that satisfies `R`,
as long as the clock can show them and some more. -/
def Takes (E : Event ρ → Prop) (k : Nat)
    (p : Run ρ (σ × TickingClock) α) (R : α → Prop) : Prop :=
  ∀ n w, Spare (n + k) w.env.2 →
    p.Resolves E w fun a w' => R a ∧ Spare n w'.env.2

theorem Untimed.takes {p : Run ρ (σ × TickingClock) α} (h : Untimed p) :
    Takes E 0 p fun _ => True := by
  intro n w hw
  exact .of_yields ((h w).mono fun _ w' hw' => ⟨trivial, hw' ▸ hw⟩)

namespace Takes

variable {p : Run ρ (σ × TickingClock) α} {R : α → Prop} {k l : Nat}

theorem pure {a : α} (h : R a) :
    Takes E k (Pure.pure a : Run ρ (σ × TickingClock) α) R :=
  fun n _ hw => .pure ⟨h, hw.fewer (Nat.le_add_right n k)⟩

theorem bind {f : α → Run ρ (σ × TickingClock) β} {S : β → Prop}
    (hp : Takes E k p R) (hf : ∀ a, R a → Takes E l (f a) S) :
    Takes E (l + k) (p >>= f) S := by
  intro n w hw
  rw [← Nat.add_assoc] at hw
  exact (hp (n + l) w hw).bind fun a w' ha => hf a ha.1 n w' ha.2

/-- A step that takes no time, and what follows it. -/
theorem after {f : α → Run ρ (σ × TickingClock) β} {S : β → Prop}
    (hp : Untimed p) (hf : ∀ a, Takes E k (f a) S) : Takes E k (p >>= f) S :=
  hp.takes.bind fun a _ => hf a

theorem within (h : Takes E k p R) (hk : k ≤ l) : Takes E l p R :=
  fun n w hw => h n w (hw.fewer (Nat.add_le_add_left hk n))

theorem mono {S : α → Prop} (h : Takes E k p R) (hR : ∀ a, R a → S a) :
    Takes E k p S :=
  fun n w hw => (h n w hw).mono fun a _ ha => ⟨hR a ha.1, ha.2⟩

/-- Events of one kind may count as events of another. -/
theorem weaken {E' : Event ρ → Prop} (h : Takes E k p R)
    (hE : ∀ e, E e → E' e) : Takes E' k p R :=
  fun n w hw => (h n w hw).weaken hE

/-- What is known of every result besides. -/
theorem and_yields {S : α → Prop} (h : Takes E k p R)
    (hS : ∀ w, p.Yields False w fun a _ => S a) :
    Takes E k p fun a => S a ∧ R a :=
  fun n w hw => ((h n w hw).and_yields (hS w)).mono fun _ _ ⟨hs, hr, hn⟩ =>
    ⟨⟨hs, hr⟩, hn⟩

end Takes

/-! ## Deadlines -/

section Deadline

variable (bus : Bus ρ σ) (spin : Bool) {timeout : Duration} {n : Nat}

/-- What a round of a wait until `e` has to achieve: a result that satisfies
`Q`, or that time has passed. -/
def Awaits (n : Nat) (e : Duration) (Q : α → World ρ (σ × TickingClock) → Prop)
    (v : World ρ (σ × TickingClock)) :
    Unit ⊕ α → World ρ (σ × TickingClock) → Prop
  | .inl _, v' => v.env.2.now.nanos < v'.env.2.now.nanos ∧
    Waiting n e v'.env.2
  | .inr a, v' => Q a v'

/-- A loop with a deadline resolves as its rounds do. -/
theorem resolves_until {body : Deadline → Run ρ (σ × TickingClock) (Unit ⊕ α)}
    {Q : α → World ρ (σ × TickingClock) → Prop}
    {w : World ρ (σ × TickingClock)} (htimeout : timeout.nanos ≤ 800000000)
    (hw : Spare (n + 1) w.env.2)
    (hbody : ∀ e v, Waiting n e v.env.2 →
      (body ⟨some e⟩).Resolves E v (Awaits n e Q v)) :
    (do
      let deadline ← (tickingMachine bus spin).deadlineAfter timeout
      Run.loop (fun _ => body deadline) ()).Resolves E w Q := by
  obtain ⟨htick, hleft⟩ := hw
  have hstart := nanos_ticked w.env.2
  rw [htick] at hstart
  refine (Resolves.of_yields (yields_deadlineAfter bus spin (by omega))).bind ?_
  rintro _ w₁ ⟨⟨e, rfl, he⟩, hw₁⟩
  -- A round may end behind the deadline, so the measure is not the time to it.
  refine .loop (fun _ v => Waiting n e v.env.2)
    (fun _ v => e.nanos + 50000000 - v.env.2.now.nanos) (fun _ v hv => ?_) ?_
  · refine (hbody e v hv).mono fun r v' hr => ?_
    cases r with
    | inl u =>
      obtain ⟨hlater, hv'⟩ := hr
      have hnow := hv.now
      have hnow' := hv'.now
      exact ⟨hv', fun _ => by simp only; omega⟩
    | inr a => exact hr
  · simp only [hw₁]
    exact ⟨htick, by omega, by omega⟩

/-- A look at the deadline: it has passed and there is time left all the same,
or the wait can go on. -/
theorem resolves_expired {e : Duration}
    {late early : Run ρ (σ × TickingClock) β}
    {R : β → World ρ (σ × TickingClock) → Prop}
    {v w : World ρ (σ × TickingClock)} (hv : Waiting n e v.env.2)
    (hw : w.env.2 = v.env.2)
    (hlate : ∀ w', Spare n w'.env.2 → late.Resolves E w' R)
    (hearly : ∀ w', w'.env.2 = ticked v.env.2 → ¬ e ≤ (ticked v.env.2).now →
      early.Resolves E w' R) :
    (do
      if ← (tickingMachine bus spin).expired ⟨some e⟩ then late
      else early).Resolves E w R := by
  refine (Resolves.of_yields (yields_expired bus spin)).bind ?_
  intro expired w' ⟨hexpired, henv⟩
  rw [hw] at hexpired henv
  have hclock : w'.env.2 = ticked v.env.2 := congrArg Prod.snd henv
  rw [hexpired]
  by_cases hreached : e ≤ (ticked v.env.2).now
  · rw [decide_eq_true hreached]
    exact hlate w' (hclock ▸ hv.last)
  · rw [decide_eq_false hreached]
    exact hearly w' hclock hreached

/-- A round that goes on after a reading before the deadline. -/
theorem resolves_again {e : Duration}
    {Q : α → World ρ (σ × TickingClock) → Prop}
    {v w : World ρ (σ × TickingClock)} (hv : Waiting n e v.env.2)
    (hw : w.env.2 = ticked v.env.2) (hearly : ¬ e ≤ (ticked v.env.2).now) :
    (pure (.inl ()) : Run ρ (σ × TickingClock) (Unit ⊕ α)).Resolves E w
      (Awaits n e Q v) := by
  refine .pure ?_
  simp only [Awaits, hw]
  exact hv.again hearly

/-- A pause after a reading before the deadline. -/
theorem resolves_pause {d e : Duration}
    {Q : α → World ρ (σ × TickingClock) → Prop}
    {v w : World ρ (σ × TickingClock)} (hv : Waiting n e v.env.2)
    (hw : w.env.2 = ticked v.env.2) (hearly : ¬ e ≤ (ticked v.env.2).now)
    (hd : d.nanos ≤ 40000000) :
    (do
      (tickingMachine bus spin).delay d
      return .inl () : Run ρ (σ × TickingClock) (Unit ⊕ α)).Resolves E w
        (Awaits n e Q v) := by
  have hnow := (hv.again hearly).2.now
  have hleft := hv.left
  have htick : w.env.2.tick.nanos = 1000 := hw ▸ hv.tick
  rw [← hw] at hnow
  refine (Resolves.of_yields (yields_delay bus spin htick (by omega))).bind ?_
  intro _ w' ⟨htick', hfrom, hto⟩
  refine .pure ?_
  rw [hw] at hfrom hto
  exact hv.paused hearly htick' hfrom (by omega)

namespace Takes

/-- A wait for a condition that is checked in no time. -/
theorem waitUntil {condition : Run ρ (σ × TickingClock) Bool}
    (htimeout : timeout.nanos ≤ 800000000) (hc : Untimed condition) :
    Takes E 1 ((tickingMachine bus spin).waitUntil timeout condition)
      fun _ => True := by
  intro n w hw
  refine resolves_until bus spin htimeout hw fun e v hv => ?_
  refine (Resolves.of_yields (hc v)).bind fun met v₁ hv₁ => ?_
  cases met with
  | true => exact .pure ⟨trivial, hv₁ ▸ hv.spare⟩
  | false =>
    refine resolves_expired bus spin hv hv₁ (fun v₂ hspare => ?_) ?_
    · refine (Resolves.of_yields (hc v₂)).bind fun met v₃ hv₃ => ?_
      exact .pure ⟨trivial, hv₃ ▸ hspare⟩
    · exact fun v₂ hclock hearly => resolves_again hv hclock hearly

theorem delay {d : Duration} (hd : d.nanos ≤ 800000000) :
    Takes E 1 ((tickingMachine bus spin).delay d) fun _ => True := by
  intro n w ⟨htick, hleft⟩
  have hdelay := yields_delay bus spin htick (d := d) (by omega)
  refine .of_yields (hdelay.mono fun _ w' hw' => ?_)
  obtain ⟨htick', -, hto⟩ := hw'
  exact ⟨trivial, htick', by omega⟩

end Takes

end Deadline

end UsbHost.Bench
