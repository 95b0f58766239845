import Mathlib.Data.List.Chain
import UsbHost.Host.RootPort
import UsbHost.Proofs.Machine.Pace

/-!
# The wait for a device

The port is polled until it shows a device or the time for it has passed.  Each
round reads the clock twice, once to see whether the time has passed and once
more to see how much of it is left, so the two can disagree, and the last
reading can be late.  With a clock that keeps pace it is late by no more than
two ticks, however long the pauses are meant to be.

## Main results

* `Detected` — how a wait ends.
* `Seeking.found`, `Seeking.expired` — the rounds that end a wait.
* `Seeking.again`, `Seeking.unlimited` — the rounds that do not.
* `observed_awaitDevice` — the whole wait.
* `detection_exact` — how a wait ends, and when it does.
-/

namespace UsbHost

open Run

/-! ## What a wait does -/

/-- The event belongs to a wait for a device, and has not shown one. -/
def Event.Seeks : Event Register → Prop
  | .clock _ => True
  | .pause _ => True
  | .read .port v => v.getLsbD 0 = false
  | _ => False

/-- How a wait for a device ends: with the first reading of the port that shows
one, or with a reading of the clock at which the time has passed, and that by no
more than two ticks. -/
inductive Detected (tick start timeout : Duration) :
    List (Event Register) → Bool → Prop where
  | found {before : List (Event Register)} {v : Word} :
    (∀ e ∈ before, e.Seeks) → v.getLsbD 0 = true →
    Detected tick start timeout (before ++ [.read .port v]) true
  | expired {before : List (Event Register)} {t : Duration} :
    (∀ e ∈ before, e.Seeks) →
    start.nanos + timeout.nanos ≤ t.nanos →
    t.nanos ≤ start.nanos + timeout.nanos + 2 * tick.nanos →
    Detected tick start timeout (before ++ [.clock t]) false

/-- `next` may come right after `e` in a wait until `deadline`: a pause is no
longer than the interval of the poll and, unless the deadline never comes, than
the time that is left at the reading of the clock right before it. -/
def Event.Allows (interval : Duration) (deadline : Nat) (e : Event Register) :
    Event Register → Prop
  | .pause d => d ≤ interval ∧ (deadline ≤ Duration.longest.nanos →
    ∃ t, e = .clock t ∧ d.nanos ≤ deadline - t.nanos)
  | _ => True

/-- The events of a wait that begins with the reading `start`, with pauses that
are not too long. -/
structure Paused (interval start timeout : Duration)
    (events : List (Event Register)) : Prop where
  first : events.head? = some (.clock start)
  pauses : events.IsChain
    (Event.Allows interval (start.nanos + timeout.nanos))

/-- The events of a whole wait, and whether a device has been found. -/
def Polls (interval tick start timeout : Duration)
    (events : List (Event Register)) (found : Bool) : Prop :=
  Detected tick start timeout events found ∧
    Paused interval start timeout events

/-- After `k` rounds of a wait no device has been seen and the next reading of
the clock is `now`.  If the wait has a deadline, each of these rounds has taken
time from it, and the next reading is not too late. -/
structure Seeking (interval tick start timeout : Duration) (k : Nat)
    (events : List (Event Register)) (now : Duration) : Prop where
  seeks : ∀ e ∈ events, e.Seeks
  paused : Paused interval start timeout events
  limited : start.nanos + timeout.nanos ≤ Duration.longest.nanos →
    k ≤ timeout.nanos ∧
      min (start.nanos + k + 1) Duration.longest.nanos ≤ now.nanos ∧
      now.nanos ≤ start.nanos + timeout.nanos + 2 * tick.nanos

section Rounds

variable {interval tick start timeout now : Duration} {k : Nat}
  {events later : List (Event Register)} {v : Word}

/-- A wait has found a device just if a reading of the port has shown one. -/
theorem Detected.found_iff {found : Bool}
    (h : Detected tick start timeout events found) :
    found = true ↔ ∃ v, .read .port v ∈ events ∧ v.getLsbD 0 = true := by
  cases h with
  | @found before v hbefore hv =>
    have hlast : .read .port v ∈ before ++ [.read .port v] :=
      List.mem_append_right before (List.mem_singleton.2 rfl)
    exact iff_of_true rfl ⟨v, hlast, hv⟩
  | @expired before t hbefore hfrom hto =>
    refine iff_of_false Bool.false_ne_true ?_
    rintro ⟨v, hmem, hv⟩
    rcases List.mem_append.1 hmem with hmem | hmem
    · have hnone : v.getLsbD 0 = false := hbefore _ hmem
      rw [hnone] at hv
      exact Bool.false_ne_true hv
    · exact nomatch List.mem_singleton.1 hmem

/-- The next look at the port, and what comes after it. -/
theorem Paused.look (h : Paused interval start timeout events)
    (hlater : (.read .port v :: later).IsChain
      (Event.Allows interval (start.nanos + timeout.nanos))) :
    Paused interval start timeout (events ++ .read .port v :: later) := by
  obtain ⟨hfirst, hpauses⟩ := h
  refine ⟨?_, hpauses.append hlater ?_⟩
  · rw [List.head?_append, hfirst]
    rfl
  · rintro e - next hnext
    obtain rfl := Option.some.inj hnext
    trivial

/-- The reading with which a wait begins. -/
theorem Seeking.begin (htick : 0 < tick.nanos) :
    Seeking interval tick start timeout 0 [.clock start]
      (start.addCapped tick) where
  seeks := List.forall_mem_singleton.2 trivial
  paused := ⟨rfl, .singleton _⟩
  limited _ := by
    rw [Duration.nanos_addCapped]
    omega

/-- A round that ends the wait because the port shows a device. -/
theorem Seeking.found (h : Seeking interval tick start timeout k events now)
    (hv : v.getLsbD 0 = true) :
    Polls interval tick start timeout (events ++ [.read .port v]) true :=
  ⟨.found h.seeks hv, h.paused.look (.singleton _)⟩

/-- A round that ends the wait because the time for it has passed. -/
theorem Seeking.expired {e : Duration}
    (h : Seeking interval tick start timeout k events now)
    (he : start.nanos + timeout.nanos = e.nanos) (hv : v.getLsbD 0 = false)
    (hlate : e.nanos ≤ now.nanos) :
    Polls interval tick start timeout
      (events ++ [.read .port v, .clock now]) false := by
  have hseeks : ∀ e ∈ events ++ [.read .port v], e.Seeks :=
    List.forall_mem_append.2 ⟨h.seeks, List.forall_mem_singleton.2 hv⟩
  have hcomes : start.nanos + timeout.nanos ≤ Duration.longest.nanos :=
    he ▸ e.le_longest
  obtain ⟨-, -, hinTime⟩ := h.limited hcomes
  have hdetected : Detected tick start timeout
      ((events ++ [.read .port v]) ++ [.clock now]) false :=
    .expired hseeks (he ▸ hlate) hinTime
  rw [List.append_assoc] at hdetected
  exact ⟨hdetected, h.paused.look (by simp [Event.Allows])⟩

/-- A round before the deadline: the port shows no device, the clock is read
twice, and the pause is no longer than what is left at the second reading. -/
theorem Seeking.again {e : Duration} (htick : 0 < tick.nanos)
    (h : Seeking interval tick start timeout k events now)
    (he : start.nanos + timeout.nanos = e.nanos) (hv : v.getLsbD 0 = false)
    (hearly : now.nanos < e.nanos) :
    let reading := now.addCapped tick
    let pause := min interval (e.sub reading)
    Seeking interval tick start timeout (k + 1)
      (events ++ [.read .port v, .clock now, .clock reading, .pause pause])
      ((reading.addCapped tick).addCapped pause) := by
  intro reading pause
  have hpause : pause.nanos = min interval.nanos (e.nanos - reading.nanos) := by
    rw [Duration.nanos_min, Duration.nanos_sub]
  refine ⟨?_, h.paused.look ?_, fun hcomes => ?_⟩
  · refine List.forall_mem_append.2 ⟨h.seeks, ?_⟩
    simpa [Event.Seeks] using hv
  · have hallowed : Event.Allows interval (start.nanos + timeout.nanos)
        (.clock reading) (.pause pause) := by
      refine ⟨?_, fun _ => ⟨reading, rfl, ?_⟩⟩
      · rw [Duration.le_def, hpause]
        omega
      · rw [hpause]
        omega
    simpa [Event.Allows] using hallowed
  · obtain ⟨hrounds, hpassed, -⟩ := h.limited hcomes
    have hreading : reading.nanos =
        min (now.nanos + tick.nanos) Duration.longest.nanos :=
      Duration.nanos_addCapped now tick
    have hnext : ((reading.addCapped tick).addCapped pause).nanos =
        min (min (reading.nanos + tick.nanos) Duration.longest.nanos +
          pause.nanos) Duration.longest.nanos := by
      rw [Duration.nanos_addCapped, Duration.nanos_addCapped]
    -- If the second reading is in time, the pause ends at the deadline at the
    -- latest, and one tick is late; if not, there is no pause, and both are.
    -- The longest duration is too large a number to compute with.
    generalize Duration.longest.nanos = longest at *
    omega

/-- A round of a wait whose deadline never comes takes no readings. -/
theorem Seeking.unlimited
    (h : Seeking interval tick start timeout k events now)
    (hnever : Duration.longest.nanos < start.nanos + timeout.nanos)
    (hv : v.getLsbD 0 = false) :
    Seeking interval tick start timeout (k + 1)
      (events ++ [.read .port v, .pause interval])
      (now.addCapped interval) := by
  have hlimited : ¬ start.nanos + timeout.nanos ≤ Duration.longest.nanos :=
    Nat.not_le_of_lt hnever
  refine ⟨?_, h.paused.look ?_, fun hcomes => absurd hcomes hlimited⟩
  · refine List.forall_mem_append.2 ⟨h.seeks, ?_⟩
    simpa [Event.Seeks] using hv
  · have hallowed : Event.Allows interval (start.nanos + timeout.nanos)
        (.read .port v) (.pause interval) :=
      ⟨Nat.le_refl _, fun hcomes => absurd hcomes hlimited⟩
    simpa using hallowed

end Rounds

/-! ## The wait -/

variable {σ : Type} {host : Host σ} {tick : Duration}
  {Shows : Duration → σ → Prop} {n : Nat} {w : World Register σ}

section Wait

variable (hm : host.core.Paced tick Shows)

include hm

theorem observed_isConnected {t : Duration} (hw : Shows t w.env) :
    host.isConnected.Observed n w (fun events found w' =>
      ∃ v, events = [.read .port v] ∧ found = v.getLsbD 0 ∧ Shows t w'.env)
      fun _ _ => False := by
  have hload : (host.core.load .port).Observed n w (fun events port w' =>
      ∃ v, events = [.read .port v] ∧ port = ⟨v⟩ ∧ Shows t w'.env)
      fun _ _ => False := by
    refine (hm.observed_read .port hw).after ?_
    rintro _ v w' ⟨rfl, hw'⟩
    exact .pure ⟨v, rfl, rfl, hw'⟩
  refine hload.after ?_
  rintro _ _ w' ⟨v, rfl, rfl, hw'⟩
  exact .pure ⟨v, rfl, BitField.get_flag _ _, hw'⟩

/-- What the rounds of a wait do once the port has shown no device. -/
theorem observed_lookAgain {start timeout now : Duration} {k : Nat}
    {events : List (Event Register)} {v : Word} (htick : 0 < tick.nanos)
    (hseeking : Seeking host.settings.portPollInterval tick start timeout k
      events now) (hv : v.getLsbD 0 = false) (hw : Shows now w.env) :
    (do
      if ← host.core.expired (.ofStart start timeout) then
        return .inr false
      let left ← host.core.timeLeft (.ofStart start timeout)
      host.core.delay (min host.settings.portPollInterval left)
      return .inl () : Run Register σ (Unit ⊕ Bool)).Observed n w
      (fun later r w' =>
        let seen := events ++ .read .port v :: later
        match r with
        | .inl _ => ∃ now', Seeking host.settings.portPollInterval tick start
            timeout (k + 1) seen now' ∧ Shows now' w'.env
        | .inr found => Polls host.settings.portPollInterval tick start
            timeout seen found)
      fun _ _ => False := by
  unfold Deadline.ofStart
  cases hdeadline : start.add? timeout with
  | none =>
    have hnever := Duration.add?_eq_none_iff.1 hdeadline
    have hwhole : min host.settings.portPollInterval .longest =
        host.settings.portPollInterval :=
      if_pos (Duration.le_longest _)
    rw [host.core.expired_none, host.core.timeLeft_none, pure_bind, pure_bind,
      hwhole]
    refine (hm.observed_delay _ hw).after ?_
    rintro _ _ w' ⟨rfl, hw'⟩
    exact .pure ⟨_, hseeking.unlimited hnever hv, hw'⟩
  | some e =>
    have he := Duration.add?_eq_some_iff.1 hdeadline
    refine (hm.observed_expired e hw).after ?_
    rintro _ _ w₁ ⟨rfl, rfl, hw₁⟩
    by_cases hlate : e ≤ now
    · rw [decide_eq_true hlate]
      exact .pure (hseeking.expired he hv hlate)
    · rw [decide_eq_false hlate]
      refine (hm.observed_timeLeft e hw₁).after ?_
      rintro _ _ w₂ ⟨rfl, rfl, hw₂⟩
      refine (hm.observed_delay _ hw₂).after ?_
      rintro _ _ w₃ ⟨rfl, hw₃⟩
      have hagain := hseeking.again htick he hv (Nat.lt_of_not_le hlate)
      exact .pure ⟨_, hagain, hw₃⟩

/-- The whole wait.  Who gives up after `n` rounds has seen none of them find a
device. -/
theorem observed_awaitDevice {start : Duration} (htick : 0 < tick.nanos)
    (timeout : Duration) (hw : Shows start w.env) :
    (host.awaitDevice timeout).Observed n w
      (fun events found _ => Polls host.settings.portPollInterval tick start
        timeout events found)
      fun events _ => ∃ now, Seeking host.settings.portPollInterval tick start
        timeout n events now := by
  refine (hm.observed_deadlineAfter timeout hw).after ?_
  rintro _ _ w₀ ⟨rfl, rfl, hw₀⟩
  refine .loop (fun k seen _ v => ∃ now,
    Seeking host.settings.portPollInterval tick start timeout k
      (.clock start :: seen) now ∧ Shows now v.env) ?_ ?_
    ⟨_, .begin htick, hw₀⟩
  · rintro seen _ v ⟨now, hseeking, -⟩
    exact ⟨now, hseeking⟩
  · rintro k seen _ v - ⟨now, hseeking, hnow⟩
    refine (observed_isConnected hm hnow).after ?_
    rintro _ _ v₁ ⟨port, rfl, rfl, hv₁⟩
    cases hport : port.getLsbD 0 with
    | true => exact .pure (hseeking.found hport)
    | false =>
      refine ((observed_lookAgain hm htick hseeking hport hv₁).weaken
        fun _ _ h => h.elim).mono ?_
      rintro later (_ | found) w' h
      · exact h
      · exact h

/-- With a clock that keeps pace, whatever is on the bus, a wait for a device
writes nothing.  It returns `true` at the first reading of the port that shows a
device, and `false` only if none does, at a reading of the clock that has come
to the deadline and is not past it by more than two ticks.  No pause is longer
than the interval of the poll, nor than the time that was left.  An observer who
gives up has seen no device.  If a clock can show the deadline, the wait ends,
and if none can, it never ends without a device. -/
theorem detection_exact {start : Duration} (htick : 0 < tick.nanos)
    (timeout : Duration) (hw : Shows start w.env) :
    (∀ n, (host.awaitDevice timeout).Observed n w
      (fun events found _ =>
        (found = true ↔ ∃ v, .read .port v ∈ events ∧ v.getLsbD 0 = true) ∧
          Detected tick start timeout events found ∧
          Paused host.settings.portPollInterval start timeout events)
      fun events _ => (∀ e ∈ events, e.Seeks) ∧
        Paused host.settings.portPollInterval start timeout events) ∧
    (start.nanos + timeout.nanos ≤ Duration.longest.nanos →
      ∀ n, timeout.nanos < n →
        ∃ found w', host.awaitDevice timeout n w = .ok found w') ∧
    (Duration.longest.nanos < start.nanos + timeout.nanos →
      ∀ n found w', host.awaitDevice timeout n w = .ok found w' →
        found = true) := by
  have hobserved : ∀ n, _ := fun n =>
    observed_awaitDevice (n := n) hm htick timeout hw
  refine ⟨fun n => ?_, fun hcomes n hn => ?_, fun hnever n found w' hrun => ?_⟩
  · refine ((hobserved n).mono ?_).weaken ?_
    · exact fun events found _ ⟨hdetected, hpaused⟩ =>
        ⟨hdetected.found_iff, hdetected, hpaused⟩
    · exact fun events _ ⟨now, hseeking⟩ => ⟨hseeking.seeks, hseeking.paused⟩
  · obtain ⟨events, w', -, ⟨found, hrun, -⟩ | ⟨-, now, hseeking⟩⟩ := hobserved n
    · exact ⟨found, w', hrun⟩
    · exact absurd (hseeking.limited hcomes).1 (Nat.not_le_of_lt hn)
  · obtain ⟨events, v, -, ⟨found', hrun', hdetected, -⟩ | ⟨hstop, -⟩⟩ :=
      hobserved n
    · cases hrun.symm.trans hrun'
      cases hdetected with
      | found hbefore hv => rfl
      | @expired before t hbefore hfrom hto =>
        have hshown : t.nanos ≤ Duration.longest.nanos := t.le_longest
        omega
    · cases hrun.symm.trans hstop

end Wait

/-- At an empty port, a wait of 25 milliseconds that begins at the first
microsecond pauses for 10, 10 and not quite 5 milliseconds, and is over one
microsecond late. -/
theorem empty_port_given_up :
    let host : Host (Bench.Environment × Bench.TickingClock) :=
      ⟨Bench.machine false, {}⟩
    let w : World Register (Bench.Environment × Bench.TickingClock) :=
      ⟨({ target := .memory [] }, {}), []⟩
    ∃ events w', host.awaitDevice (.ofMillis 25) 20 w = .ok false w' ∧
      w.Through events w' ∧
      Detected (.ofMicros 1) (.ofMicros 1) (.ofMillis 25) events false ∧
      events.getLast? = some (.clock (.ofMicros 25002)) := by
  intro host w
  have hreturns : (host.awaitDevice (.ofMillis 25)).returns 20 w
      (fun found w' => decide (found = false ∧
        w'.log.head? = some (.clock (.ofMicros 25002)))) = true := by
    decide +kernel
  obtain ⟨found, w', hrun, hend⟩ := exists_of_returns hreturns
  obtain ⟨rfl, hlast⟩ := of_decide_eq_true hend
  have hpaced : host.core.Paced (.ofMicros 1) _ :=
    Bench.paced_tickingMachine Bench.Environment.bus (.ofMicros 1)
  have hexact := detection_exact (w := w) hpaced (by decide) (.ofMillis 25)
    ⟨rfl, rfl⟩
  obtain ⟨events, v, hevents, ⟨_, hrun', -, hdetected, -⟩ | ⟨hstop, -⟩⟩ :=
    hexact.1 20
  · cases hrun.symm.trans hrun'
    refine ⟨events, w', hrun, hevents, hdetected, ?_⟩
    rw [hevents] at hlast
    simpa [w] using hlast
  · cases hrun.symm.trans hstop

end UsbHost
