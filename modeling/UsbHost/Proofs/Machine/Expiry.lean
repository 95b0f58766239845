import Mathlib.Logic.Relation
import UsbHost.Bench.Readings
import UsbHost.Proofs.Machine.Account
import UsbHost.Proofs.Machine.Ticking
import UsbHost.Proofs.Machine.Traces

/-!
# Waiting long enough

Every bounded wait of a driver rests on a deadline, and every pause on a delay.
Neither may end early, and a wait may not be given up while its condition holds.
This is true of every clock, even of one that jumps about, since only what a
reading shows is ever relied on.  Of a clock that never goes back it is known
besides that a deadline stays reached.

## Main results

* `Machine.shown_le_of_later` — a monotone clock shows no less later on.
* `Machine.delay_readings` — the readings of a delay on a clock that cannot skip
  ahead.
* `Machine.wait_met_iff` — a wait is met just if one of its checks was.
* `Machine.waits_long_enough` — deadlines, waits and delays.
-/

namespace UsbHost

open Run

variable {ρ σ : Type}

/-! ## Clocks that never go back -/

namespace Machine

variable (m : Machine ρ σ)

/-- What a single use of the bus or the clock can make of an environment. -/
inductive Use (s : σ) : σ → Prop where
  | read (r : ρ) : Use s (m.bus.read r s).2
  | write (r : ρ) (v : Word) : Use s (m.bus.write r v s)
  | barrier : Use s (m.bus.barrier s)
  | now : Use s (m.clock.now s).2
  | skip (f : Duration → σ → σ) (d : Duration) (h : m.clock.skip = some f) :
    Use s (f d s)

/-- The second environment is what has become of the first. -/
def Later : σ → σ → Prop := Relation.ReflTransGen m.Use

/-- Whatever the machine is used for, its clock does not go back. -/
def Monotone : Prop := ∀ s s', m.Use s s' → m.shown s ≤ m.shown s'

variable {m}

/-- A monotone clock shows no less later on. -/
theorem shown_le_of_later (hm : m.Monotone) {s s' : σ} (h : m.Later s s') :
    m.shown s ≤ m.shown s' := by
  induction h with
  | refl => exact Nat.le_refl _
  | tail _ huse ih => exact Nat.le_trans ih (hm _ _ huse)

variable (m)

/-! ## Deadlines -/

theorem deadlineAfter_shown (timeout : Duration) (n : Nat) (w : World ρ σ) :
    ∃ w', m.deadlineAfter timeout n w =
      .ok (.ofStart (m.shown w.env) timeout) w' :=
  ⟨_, rfl⟩

theorem expired_shown (d : Deadline) (n : Nat) (w : World ρ σ) :
    ∃ w', m.expired d n w = .ok (d.reached (m.shown w.env)) w' := by
  obtain ⟨_ | e⟩ := d
  · exact ⟨w, rfl⟩
  · exact ⟨_, rfl⟩

theorem timeLeft_shown (d : Deadline) (n : Nat) (w : World ρ σ) :
    ∃ w', m.timeLeft d n w = .ok (d.remaining (m.shown w.env)) w' := by
  obtain ⟨_ | e⟩ := d
  · exact ⟨w, rfl⟩
  · exact ⟨_, rfl⟩

/-! ## Waits -/

/-- A wait is met just if one of its checks was. -/
theorem wait_met_iff (timeout : Duration) (condition : Run ρ σ Bool) (n : Nat)
    (w : World ρ σ) :
    (∃ w', m.waitUntil timeout condition n w = .ok true w') ↔
      Look.check true ∈ m.looks timeout condition n w := by
  cases hrun : m.waitUntil timeout condition n w with
  | ok met w' =>
    rw [← (m.concluded_of_run hrun).met_iff]
    constructor
    · rintro ⟨_, h⟩
      cases h
      rfl
    · rintro rfl
      exact ⟨w', rfl⟩
  | error e w' =>
    exact iff_of_false nofun (m.stopped_of_run hrun).not_met

/-! ## Delays -/

/-- A delay takes readings up to the first that is late enough. -/
theorem traces_readOn (finish : Duration) :
    (Run.loop (m.readOn finish) ()).Traces
      (fun events _ => ∃ readings t,
        events = (readings ++ [t]).map Event.clock ∧ finish ≤ t ∧
          ∀ r ∈ readings, r < finish)
      fun _ => True := by
  refine .loop (fun seen _ => ∃ readings, seen = readings.map Event.clock ∧
    ∀ r ∈ readings, r < finish) (fun _ _ _ => trivial) ?_ ⟨[], rfl, nofun⟩
  rintro seen _ ⟨readings, rfl, hearly⟩
  refine m.traces_now.after ?_
  rintro _ t rfl
  refine .pure ?_
  have hevents : readings.map Event.clock ++ ([.clock t] ++ []) =
      ((readings ++ [t]).map Event.clock : List (Event ρ)) := by
    rw [List.append_nil, List.map_append]
    rfl
  rw [hevents]
  split
  next ht =>
    refine ⟨readings ++ [t], rfl, List.forall_mem_append.2 ⟨hearly, ?_⟩⟩
    exact List.forall_mem_singleton.2 ht
  next ht => exact ⟨readings, t, rfl, Nat.le_of_not_lt ht, hearly⟩

/-- On a clock that cannot skip ahead, a delay returns with the first reading
that is as late as it has to be. -/
theorem delay_readings (hskip : m.clock.skip = none) {d : Duration} {n : Nat}
    {w w' : World ρ σ} (h : m.delay d n w = .ok () w') :
    ∃ readings t,
      w.Through ((m.shown w.env :: readings ++ [t]).map Event.clock) w' ∧
        (m.shown w.env).addCapped d ≤ t ∧
        ∀ r ∈ readings, r < (m.shown w.env).addCapped d := by
  simp only [delay, hskip] at h
  obtain ⟨start, v, hstart, hloop⟩ := bind_eq_ok.1 h
  rw [m.now_run] at hstart
  cases hstart
  obtain ⟨_, hevents, readings, t, rfl, hlate, hearly⟩ :=
    (m.traces_readOn _).of_run hloop
  have hfirst : w.Through [.clock (m.shown w.env)]
      ⟨(m.clock.now w.env).2, .clock (m.shown w.env) :: w.log⟩ := rfl
  exact ⟨readings, t, hfirst.trans hevents, hlate, hearly⟩

end Machine

/-- A ticking clock does not go back, on any bus and however it is delayed. -/
theorem Bench.monotone_tickingMachine (bus : Bus ρ σ) (spin : Bool) :
    (tickingMachine bus spin).Monotone := by
  intro s s' huse
  have hshown (c : σ × TickingClock) :
      (tickingMachine bus spin).shown c = (ticked c.2).now := rfl
  rw [hshown, hshown, Duration.le_def, nanos_ticked, nanos_ticked]
  cases huse with
  | read r => exact Nat.le_refl _
  | write r v => exact Nat.le_refl _
  | barrier => exact Nat.le_refl _
  | now =>
    show _ ≤ min ((ticked s.2).now.nanos + s.2.tick.nanos) _
    rw [nanos_ticked]
    omega
  | skip f d hskip =>
    cases spin with
    | true => exact nomatch hskip
    | false =>
      cases hskip
      show _ ≤ min ((s.2.now.addCapped d).nanos + s.2.tick.nanos) _
      rw [Duration.nanos_addCapped]
      omega

namespace Machine

/-! ## All of it -/

/-- A deadline is made of the reading at its creation.  Asked at any reading, it
has been reached just if it can be shown by a clock and the reading is not before
it; no time is left in just these cases, and an endless one if the deadline
never comes.  If the clock never goes back, a deadline stays reached and the time
left does not grow.  A wait, followed with an account of its checks and readings
that it does not notice, is met just if one of its checks was; it is given up
only if its last check failed after a reading at the deadline or behind it.  And
a delay on a clock that cannot skip ahead takes readings until one is as late as
the first and the delay together, or is the last that a clock can show. -/
theorem waits_long_enough (m : Machine ρ σ) (timeout : Duration) :
    (∀ n w, ∃ w', m.deadlineAfter timeout n w =
      .ok (.ofStart (m.shown w.env) timeout) w') ∧
    (∀ start : Duration,
      let d := Deadline.ofStart start timeout
      let due := start.nanos + timeout.nanos
      (∀ n w, (∃ w', m.expired d n w = .ok (d.reached (m.shown w.env)) w') ∧
        ∃ w', m.timeLeft d n w = .ok (d.remaining (m.shown w.env)) w') ∧
      (∀ t : Duration,
        (d.reached t = true ↔ due ≤ Duration.longest.nanos ∧ due ≤ t.nanos) ∧
          (d.remaining t = .zero ↔
            due ≤ Duration.longest.nanos ∧ due ≤ t.nanos) ∧
          (Duration.longest.nanos < due → d.remaining t = .longest)) ∧
      (m.Monotone → ∀ s s', m.Later s s' →
        (d.reached (m.shown s) = true → d.reached (m.shown s') = true) ∧
          d.remaining (m.shown s') ≤ d.remaining (m.shown s))) ∧
    (∀ condition : Run ρ σ Bool,
      Forgets (m.accounted.waitUntil timeout condition.accounted)
        (m.waitUntil timeout condition) ∧
      ∀ n w,
        ((∃ w', m.waitUntil timeout condition n w = .ok true w') ↔
          Look.check true ∈ m.looks timeout condition n w) ∧
        ∀ w', m.waitUntil timeout condition n w = .ok false w' →
          ∃ before t,
            m.looks timeout condition n w =
              before ++ [.reading t, .check false] ∧
            (m.shown w.env).nanos + timeout.nanos ≤ t.nanos) ∧
    (m.clock.skip = none → ∀ d n w w', m.delay d n w = .ok () w' →
      ∃ readings t,
        w.Through ((m.shown w.env :: readings ++ [t]).map Event.clock) w' ∧
          min ((m.shown w.env).nanos + d.nanos) Duration.longest.nanos ≤
            t.nanos) := by
  refine ⟨m.deadlineAfter_shown timeout, fun start => ⟨?asked, ?told, ?later⟩,
    fun condition => ⟨m.forgets_waitUntil timeout condition, fun n w =>
      ⟨m.wait_met_iff timeout condition n w, ?givenUp⟩⟩, ?delayed⟩
  case asked => exact fun n w => ⟨m.expired_shown _ n w, m.timeLeft_shown _ n w⟩
  case told =>
    intro t
    have hshown := t.le_longest
    have hreached : (Deadline.ofStart start timeout).reached t = true ↔
        start.nanos + timeout.nanos ≤ Duration.longest.nanos ∧
          start.nanos + timeout.nanos ≤ t.nanos :=
      Deadline.reached_ofStart_iff.trans
        ⟨fun h => ⟨Nat.le_trans h hshown, h⟩, And.right⟩
    exact ⟨hreached, Deadline.remaining_eq_zero_iff.trans hreached,
      Deadline.remaining_of_never⟩
  case later =>
    intro hm s s' hlater
    have hle := shown_le_of_later hm hlater
    exact ⟨Deadline.reached_of_le _ hle, Deadline.remaining_le_of_le _ hle⟩
  case givenUp => exact fun w' hrun => (m.concluded_of_run hrun).given_up
  case delayed =>
    intro hskip d n w w' hrun
    obtain ⟨readings, t, hevents, hlate, -⟩ := m.delay_readings hskip hrun
    exact ⟨readings, t, hevents, hlate⟩

/-- A delay without end, begun after a second, ends with the last reading that a
clock can show.  A wait of a second for what never holds, begun with the same
reading, is given up two seconds after the clock's start.  And on a clock that
moves by a second at each reading, a deadline a second from the first one has
been reached at the next reading, and stays reached. -/
theorem waited_long_enough :
    let second := Duration.ofMillis 1000
    let m := Bench.Readings.machine
    let delayed : World Empty Bench.Readings :=
      ⟨.ofList [second, .longest], []⟩
    let waiting : World Empty Bench.Readings :=
      ⟨.ofList [second, .ofMillis 2000], []⟩
    let ticking := Bench.tickingMachine m.bus true
    let start : Bench.Readings × Bench.TickingClock :=
      ({}, { tick := second })
    let next := (ticking.clock.now start).2
    let last := (ticking.clock.now next).2
    let d := Deadline.ofStart (ticking.shown start) second
    (m.clock.skip = none ∧
      ∃ w', m.delay .longest 1 delayed = .ok () w' ∧
        ∃ readings t,
          delayed.Through
            ((m.shown delayed.env :: readings ++ [t]).map Event.clock) w' ∧
          min (second.nanos + Duration.longest.nanos) Duration.longest.nanos ≤
            t.nanos) ∧
      (∃ w', m.waitUntil second (pure false) 1 waiting = .ok false w' ∧
        ∃ before t, m.looks second (pure false) 1 waiting =
            before ++ [.reading t, .check false] ∧
          second.nanos + second.nanos ≤ t.nanos) ∧
      ticking.Monotone ∧ ticking.Later next last ∧
      d.reached (ticking.shown next) = true ∧
      d.reached (ticking.shown last) = true := by
  intro second m delayed waiting ticking start next last d
  have hmonotone := Bench.monotone_tickingMachine m.bus true
  have hlater : ticking.Later next last := .single .now
  have hreached : d.reached (ticking.shown next) = true := by decide
  have hends : (m.delay .longest).returns 1 delayed (fun _ _ => true) = true :=
    by decide +kernel
  have hfails : (m.waitUntil second (pure false)).returns 1 waiting
      (fun met _ => !met) = true := by decide +kernel
  obtain ⟨_, w₁, hdelay, -⟩ := exists_of_returns hends
  obtain ⟨_ | _, w₂, hwait, hmet⟩ := exists_of_returns hfails
  case true => exact nomatch hmet
  obtain ⟨-, -, hgivenUp, hdelayed⟩ := waits_long_enough m second
  obtain ⟨-, hdeadline, -, -⟩ := waits_long_enough ticking second
  exact ⟨⟨rfl, w₁, hdelay, hdelayed rfl _ _ _ _ hdelay⟩,
    ⟨w₂, hwait, ((hgivenUp _).2 _ _).2 w₂ hwait⟩, hmonotone, hlater, hreached,
    (((hdeadline _).2.2 hmonotone _ _ hlater).1 hreached)⟩

end Machine

end UsbHost
