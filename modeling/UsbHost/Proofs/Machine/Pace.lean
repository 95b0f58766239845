import UsbHost.Proofs.Machine.Patience
import UsbHost.Proofs.Machine.Ticking

/-!
# Clocks that keep pace

A clock keeps pace if it shows just one tick more at each reading, and just the
time of a delay more after it.  What it shows next is then known at every point
of a run, and with it the outcome of every look at a deadline.  A clock that has
come to the last time it can show stays there.

## Main results

* `Machine.Paced` — what is known of such a clock.
* `Paced.observed_now`, `Paced.observed_delay` — readings and delays.
* `Paced.observed_expired`, `Paced.observed_timeLeft` — looks at a deadline.
* `Bench.paced_tickingMachine` — the ticking clock keeps pace, on any bus.
-/

namespace UsbHost

open Run

variable {ρ σ : Type}

/-- The clock shows one `tick` more at each reading and `d` more after a delay
of `d`, whatever is read on the bus; `Shows t s` says that in the state `s` the
next reading is `t`. -/
structure Machine.Paced (m : Machine ρ σ) (tick : Duration)
    (Shows : Duration → σ → Prop) : Prop where
  shows : ∀ t s, Shows t s → (m.clock.now s).1 = t
  ticks : ∀ t s, Shows t s → Shows (t.addCapped tick) (m.clock.now s).2
  skips : ∃ skip, m.clock.skip = some skip ∧
    ∀ t s d, Shows t s → Shows (t.addCapped d) (skip d s)
  read : ∀ t s r, Shows t s → Shows t (m.bus.read r s).2

namespace Machine.Paced

variable {m : Machine ρ σ} {tick : Duration} {Shows : Duration → σ → Prop}
  (hm : m.Paced tick Shows) {n : Nat} {t : Duration} {w : World ρ σ}

include hm

theorem observed_now (hw : Shows t w.env) :
    m.now.Observed n w (fun events reading w' => events = [.clock t] ∧
      reading = t ∧ Shows (t.addCapped tick) w'.env) fun _ _ => False := by
  have hnow := m.now_run n w
  rw [hm.shows t _ hw] at hnow
  exact .event hnow ⟨rfl, rfl, hm.ticks t _ hw⟩

theorem observed_read (r : ρ) (hw : Shows t w.env) :
    (m.read r).Observed n w (fun events v w' => events = [.read r v] ∧
      Shows t w'.env) fun _ _ => False :=
  .event (m.read_run r n w) ⟨rfl, hm.read t _ r hw⟩

/-- A delay takes just as long as it is asked to. -/
theorem observed_delay (d : Duration) (hw : Shows t w.env) :
    (m.delay d).Observed n w (fun events _ w' => events = [.pause d] ∧
      Shows (t.addCapped d) w'.env) fun _ _ => False := by
  obtain ⟨skip, hskip, hshows⟩ := hm.skips
  exact .event (m.delay_of_skip hskip d n w) ⟨rfl, hshows t _ d hw⟩

theorem observed_deadlineAfter (timeout : Duration) (hw : Shows t w.env) :
    (m.deadlineAfter timeout).Observed n w (fun events deadline w' =>
      events = [.clock t] ∧ deadline = .ofStart t timeout ∧
        Shows (t.addCapped tick) w'.env) fun _ _ => False := by
  refine (hm.observed_now hw).after ?_
  rintro _ _ v ⟨rfl, rfl, hv⟩
  exact .pure ⟨rfl, rfl, hv⟩

/-- A look at a deadline that comes. -/
theorem observed_expired (e : Duration) (hw : Shows t w.env) :
    (m.expired ⟨some e⟩).Observed n w (fun events late w' =>
      events = [.clock t] ∧ late = decide (e ≤ t) ∧
        Shows (t.addCapped tick) w'.env) fun _ _ => False := by
  refine (hm.observed_now hw).after ?_
  rintro _ _ v ⟨rfl, rfl, hv⟩
  exact .pure ⟨rfl, rfl, hv⟩

/-- The time that is left until a deadline that comes. -/
theorem observed_timeLeft (e : Duration) (hw : Shows t w.env) :
    (m.timeLeft ⟨some e⟩).Observed n w (fun events left w' =>
      events = [.clock t] ∧ left = e.sub t ∧
        Shows (t.addCapped tick) w'.env) fun _ _ => False := by
  refine (hm.observed_now hw).after ?_
  rintro _ _ v ⟨rfl, rfl, hv⟩
  exact .pure ⟨rfl, rfl, hv⟩

end Machine.Paced

namespace Bench

/-- Whatever the bus, a ticking clock keeps pace with its tick. -/
theorem paced_tickingMachine (bus : Bus ρ σ) (tick : Duration) :
    (tickingMachine bus false).Paced tick fun t s =>
      s.2.tick = tick ∧ t = (ticked s.2).now where
  shows _ _ h := h.2.symm
  ticks t s h := by
    obtain ⟨htick, rfl⟩ := h
    subst htick
    exact ⟨rfl, rfl⟩
  skips := by
    refine ⟨_, rfl, ?_⟩
    rintro _ s d ⟨htick, rfl⟩
    refine ⟨htick, Duration.ext ?_⟩
    show ((s.2.now.addCapped s.2.tick).addCapped d).nanos =
      ((s.2.now.addCapped d).addCapped s.2.tick).nanos
    simp only [Duration.nanos_addCapped]
    omega
  read _ _ _ h := h

end Bench

end UsbHost
