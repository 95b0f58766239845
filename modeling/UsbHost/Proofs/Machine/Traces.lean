import UsbHost.Proofs.Machine.Always

/-!
# What a program does, in order

The log of a run tells what has happened on bus and clock, and a claim about the
order of accesses is a claim about it.  `p.Traces Q H` says that on every
hardware the events of a run of `p`, oldest first, together with what it returns
satisfy `Q`, and that the events of a run that stops without a result satisfy
`H`.  What the hardware answers is part of the events, so nothing else has to be
known of it.

## Main results

* `Traces.bind`, `Traces.loop` — sequences and loops.
* `Machine.traces_read`, `Machine.traces_write`, `Machine.traces_now` — the
  primitive steps.
* `Machine.traces_delay` — a delay is about nothing but time.
* `Machine.traces_waitUntil` — what a bounded wait for a register has read, and
  when it gave up.
-/

namespace UsbHost

variable {ρ σ α β : Type}

/-- From one world to the other the log has grown by these events, of which the
oldest comes first. -/
def World.Through (w : World ρ σ) (events : List (Event ρ)) (w' : World ρ σ) :
    Prop :=
  w'.log = events.reverse ++ w.log

namespace World.Through

variable {w w' w'' : World ρ σ} {events later : List (Event ρ)}

theorem refl (w : World ρ σ) : w.Through [] w := rfl

theorem trans (h : w.Through events w') (h' : w'.Through later w'') :
    w.Through (events ++ later) w'' := by
  unfold Through at h h' ⊢
  rw [h', h, List.reverse_append, List.append_assoc]

/-- The events between two worlds are determined by their logs. -/
theorem unique (h : w.Through events w') (h' : w.Through later w') :
    events = later :=
  List.reverse_inj.1 (List.append_cancel_right (h.symm.trans h'))

end World.Through

namespace Run

/-- Whatever the hardware, what happens until `p` returns and what it returns
satisfy `Q`, and what happens until it stops without a result satisfies `H`. -/
def Traces (p : Run ρ σ α) (Q : List (Event ρ) → α → Prop)
    (H : List (Event ρ) → Prop) : Prop :=
  ∀ w, p.Always w (fun a w' => ∃ events, w.Through events w' ∧ Q events a)
    fun w' => ∃ events, w.Through events w' ∧ H events

namespace Traces

variable {p : Run ρ σ α} {Q R : List (Event ρ) → α → Prop}
  {G H : List (Event ρ) → Prop}

/-- The events of a run that returns. -/
theorem of_run (h : p.Traces Q H) {n : Nat} {w w' : World ρ σ} {a : α}
    (hr : p n w = .ok a w') : ∃ events, w.Through events w' ∧ Q events a :=
  (h w).ok n a w' hr

/-- The events of a run, if they are known. -/
theorem of_through (h : p.Traces Q H) {n : Nat} {w w' : World ρ σ} {a : α}
    {events : List (Event ρ)} (hr : p n w = .ok a w')
    (hevents : w.Through events w') : Q events a := by
  obtain ⟨events', hevents', hQ⟩ := h.of_run hr
  rwa [hevents.unique hevents']

theorem mono (h : p.Traces Q H) (hQ : ∀ events a, Q events a → R events a) :
    p.Traces R H :=
  fun w => (h w).mono fun _ _ ⟨events, hw, ha⟩ => ⟨events, hw, hQ _ _ ha⟩

theorem weaken (h : p.Traces Q G) (hG : ∀ events, G events → H events) :
    p.Traces Q H :=
  fun w => (h w).weaken fun _ ⟨events, hw, hs⟩ => ⟨events, hw, hG _ hs⟩

/-- What two laws say of the events of a program, they say of the same
events. -/
theorem and (h : p.Traces Q G) (h' : p.Traces R H) :
    p.Traces (fun events a => Q events a ∧ R events a)
      fun events => G events ∧ H events := by
  intro w
  refine (((h w).and (h' w)).mono ?_).weaken ?_
  · rintro a w' ⟨⟨events, hevents, hQ⟩, events', hevents', hR⟩
    obtain rfl := hevents.unique hevents'
    exact ⟨events, hevents, hQ, hR⟩
  · rintro w' ⟨⟨events, hevents, hG⟩, events', hevents', hH⟩
    obtain rfl := hevents.unique hevents'
    exact ⟨events, hevents, hG, hH⟩

theorem pure {a : α} (h : Q [] a) :
    (Pure.pure a : Run ρ σ α).Traces Q H :=
  fun w => .pure ⟨[], .refl w, h⟩

/-- A sequence does what its second part does after the first. -/
theorem bind {f : α → Run ρ σ β} {S : List (Event ρ) → β → Prop}
    (hp : p.Traces Q G) (hG : ∀ events, G events → H events)
    (hf : ∀ events a, Q events a → (f a).Traces
      (fun later b => S (events ++ later) b) fun later => H (events ++ later)) :
    (p >>= f).Traces S H := by
  intro w
  refine Always.bind (hp.weaken hG w) fun a w' ⟨events, hw, ha⟩ => ?_
  refine ((hf events a ha w').weaken ?_).mono ?_
  · exact fun w'' ⟨later, hlater, hH⟩ => ⟨events ++ later, hw.trans hlater, hH⟩
  · exact fun b w'' ⟨later, hlater, hS⟩ =>
      ⟨events ++ later, hw.trans hlater, hS⟩

/-- What follows a program that always returns. -/
theorem after {f : α → Run ρ σ β} {S : List (Event ρ) → β → Prop}
    (hp : p.Traces Q fun _ => False)
    (hf : ∀ events a, Q events a → (f a).Traces
      (fun later b => S (events ++ later) b) fun later => H (events ++ later)) :
    (p >>= f).Traces S H :=
  hp.bind (fun _ h => h.elim) hf

/-- What a round has to come to, after everything that was seen before it: the
invariant again, or a result. -/
def Round (I : List (Event ρ) → β → Prop) (Q : List (Event ρ) → α → Prop)
    (seen : List (Event ρ)) : β ⊕ α → Prop
  | .inl b => I seen b
  | .inr a => Q seen a

/-- A loop whose invariant speaks of everything seen since it began. -/
theorem loop {body : β → Run ρ σ (β ⊕ α)} (I : List (Event ρ) → β → Prop)
    (hstop : ∀ seen b, I seen b → H seen)
    (hbody : ∀ seen b, I seen b → (body b).Traces
      (fun events r => Round I Q (seen ++ events) r)
      fun events => H (seen ++ events))
    {b : β} (hb : I [] b) : (Run.loop body b).Traces Q H := by
  intro w
  refine .loop (fun b w' => ∃ seen, w.Through seen w' ∧ I seen b) ?_ ?_
    ⟨[], .refl w, hb⟩
  · exact fun b w' ⟨seen, hw, hI⟩ => ⟨seen, hw, hstop seen b hI⟩
  · intro b w' ⟨seen, hw, hI⟩
    refine ((hbody seen b hI w').mono ?_).weaken ?_
    · rintro (b' | a) w'' ⟨events, hevents, hr⟩
      · exact ⟨seen ++ events, hw.trans hevents, hr⟩
      · exact ⟨seen ++ events, hw.trans hevents, hr⟩
    · exact fun w'' ⟨events, hevents, hs⟩ =>
        ⟨seen ++ events, hw.trans hevents, hs⟩

/-- A program that only ever does one event. -/
theorem event {a : World ρ σ → α} {e : World ρ σ → Event ρ}
    {env : World ρ σ → σ}
    (hp : ∀ n w, p n w = .ok (a w) ⟨env w, e w :: w.log⟩)
    (hQ : ∀ w, Q [e w] (a w)) : p.Traces Q fun _ => False :=
  fun w => .of_eq (hp · w) ⟨[e w], rfl, hQ w⟩

end Traces

end Run

open Run

/-! ## Primitive steps -/

namespace Machine

variable (m : Machine ρ σ)

theorem traces_read (r : ρ) :
    (m.read r).Traces (fun events v => events = [.read r v])
      fun _ => False :=
  .event (m.read_run r) fun _ => rfl

theorem traces_write (r : ρ) (v : Word) :
    (m.write r v).Traces (fun events _ => events = [.write r v])
      fun _ => False :=
  .event (m.write_run r v) fun _ => rfl

theorem traces_barrier :
    m.barrier.Traces (fun events _ => events = [.barrier]) fun _ => False :=
  .event m.barrier_run fun _ => rfl

theorem traces_now :
    m.now.Traces (fun events t => events = [.clock t]) fun _ => False :=
  .event m.now_run fun _ => rfl

/-- Words written to one register one after the other. -/
theorem traces_writes (r : ρ) (words : List Word) :
    (words.forM (m.write r)).Traces
      (fun events _ => events = words.map (.write r)) fun _ => False := by
  induction words with
  | nil => exact .pure rfl
  | cons v rest ih =>
    refine (m.traces_write r v).after ?_
    rintro _ _ rfl
    exact ih.mono fun events _ h => congrArg (Event.write r v :: ·) h

/-! ## Time -/

/-- A delay reads the clock, or lets time pass without. -/
theorem traces_delay (d : Duration) {E : Event ρ → Prop}
    (hclock : ∀ t, E (.clock t)) (hpause : ∀ d, E (.pause d)) :
    (m.delay d).Traces (fun events _ => ∀ e ∈ events, E e)
      fun events => ∀ e ∈ events, E e := by
  have hnow : m.now.Traces (fun events _ => ∀ e ∈ events, E e)
      fun _ => False := by
    refine m.traces_now.mono ?_
    rintro _ t rfl
    exact List.forall_mem_singleton.2 (hclock t)
  unfold Machine.delay
  split
  next skip _ =>
    refine (Traces.event (fun _ _ => rfl) fun _ => ?_).weaken
      fun _ h => h.elim
    exact List.forall_mem_singleton.2 (hpause d)
  next =>
    refine hnow.after fun events start hevents => ?_
    refine .loop (fun seen _ => ∀ e ∈ events ++ seen, E e)
      (fun _ _ h => h) (fun seen _ hseen => ?_)
      (by rwa [List.append_nil])
    refine hnow.after fun later t hlater => .pure ?_
    have hall := List.forall_mem_append.2 ⟨hseen, hlater⟩
    rw [List.append_assoc] at hall
    rw [List.append_nil]
    split
    · exact hall
    · exact hall

/-- The deadline of a wait is fixed by a reading of the clock. -/
theorem traces_deadlineAfter (timeout : Duration) :
    (m.deadlineAfter timeout).Traces (fun events deadline =>
      ∃ start, events = [.clock start] ∧
        deadline = .ofStart start timeout) fun _ => False := by
  refine m.traces_now.after ?_
  rintro _ start rfl
  exact .pure ⟨start, rfl, rfl⟩

/-- Whether a deadline has been reached is told by a reading of the clock, or
known without one if it never comes. -/
theorem traces_expired (d : Deadline) :
    (m.expired d).Traces (fun events late =>
      events = [] ∧ late = false ∨
        ∃ t, events = [.clock t] ∧ late = d.reached t) fun _ => False := by
  unfold Machine.expired
  split
  · refine m.traces_now.after ?_
    rintro _ t rfl
    exact .pure (.inr ⟨t, rfl, rfl⟩)
  · exact .pure (.inl ⟨rfl, rfl⟩)

end Machine

/-! ## Bounded waits -/

/-- The event belongs to a wait for a register to show something, and has not
shown it. -/
def Event.Misses (r : ρ) (shows : Word → Bool) : Event ρ → Prop
  | .clock _ => True
  | .read r' v => r' = r ∧ shows v = false
  | _ => False

/-- The events of a wait for a register to show something.  Whether the wait was
met is what its last event showed, and nothing before it did. -/
def Waited (r : ρ) (shows : Word → Bool) (events : List (Event ρ))
    (met : Bool) : Prop :=
  ∃ before v, events = before ++ [.read r v] ∧
    (∀ e ∈ before, e.Misses r shows) ∧ shows v = met

namespace Waited

variable {r : ρ} {shows : Word → Bool} {events : List (Event ρ)}

/-- The next reading of the register ends a wait that has missed so far, or
misses too. -/
theorem look (h : ∀ e ∈ events, e.Misses r shows) (v : Word) :
    Waited r shows (events ++ [.read r v]) (shows v) :=
  ⟨events, v, rfl, h, rfl⟩

/-- A wait that was not met has missed all the time. -/
theorem misses (h : Waited r shows events false) :
    ∀ e ∈ events, e.Misses r shows := by
  obtain ⟨before, v, rfl, hbefore, hv⟩ := h
  refine List.forall_mem_append.2 ⟨hbefore, ?_⟩
  exact List.forall_mem_singleton.2 ⟨rfl, hv⟩

end Waited

/-- The events of a wait that was given up.  It began with a reading of the
clock, and nothing showed what it was for until a reading came that is late by
the one it began with; nor did the last look, after that reading. -/
def GivenUp (timeout : Duration) (r : ρ) (shows : Word → Bool)
    (events : List (Event ρ)) : Prop :=
  ∃ start seen t v, events = .clock start :: (seen ++ [.clock t, .read r v]) ∧
    (∀ e ∈ seen, e.Misses r shows) ∧ shows v = false ∧
    start.nanos + timeout.nanos ≤ t.nanos

/-- A wait that was given up has missed all the time. -/
theorem GivenUp.misses {timeout : Duration} {r : ρ} {shows : Word → Bool}
    {events : List (Event ρ)} (h : GivenUp timeout r shows events) :
    ∀ e ∈ events, e.Misses r shows := by
  obtain ⟨start, seen, t, v, rfl, hseen, hv, -⟩ := h
  have hlast : ∀ e ∈ [Event.clock t, .read r v], e.Misses r shows :=
    List.forall_mem_cons.2 ⟨trivial, List.forall_mem_singleton.2 ⟨rfl, hv⟩⟩
  exact List.forall_mem_cons.2
    ⟨trivial, List.forall_mem_append.2 ⟨hseen, hlast⟩⟩

/-- A bounded wait for a register looks at the register and the clock, and at
the register last.  If that was not met, it was given up; and if it is not over
yet, it has missed so far. -/
theorem Machine.traces_waitUntil (m : Machine ρ σ) (timeout : Duration) {r : ρ}
    {shows : Word → Bool} {condition : Run ρ σ Bool}
    (hc : condition.Traces
      (fun events met => ∃ v, events = [.read r v] ∧ met = shows v)
      fun _ => False) :
    (m.waitUntil timeout condition).Traces
      (fun events met => Waited r shows events met ∧
        (met = false → GivenUp timeout r shows events))
      fun events => ∀ e ∈ events, e.Misses r shows := by
  refine (m.traces_deadlineAfter timeout).after ?_
  rintro _ deadline ⟨start, rfl, rfl⟩
  -- The invariant takes in the reading at the start of the wait.
  refine .loop (fun seen _ => ∀ e ∈ .clock start :: seen, e.Misses r shows)
    (fun _ _ h => h) (fun seen _ hseen => ?_)
    (List.forall_mem_singleton.2 trivial)
  refine hc.after ?_
  rintro _ _ ⟨v, rfl, rfl⟩
  have hlook := Waited.look hseen v
  cases hv : shows v with
  | true => exact .pure ⟨hv ▸ hlook, nofun⟩
  | false =>
    rw [hv] at hlook
    have hlooked : ∀ e ∈ seen ++ [.read r v], e.Misses r shows :=
      (List.forall_mem_cons.1 hlook.misses).2
    refine (m.traces_expired _).after fun events late h => ?_
    rcases h with ⟨rfl, rfl⟩ | ⟨t, rfl, rfl⟩
    · exact .pure (by simpa [Traces.Round] using hlook.misses)
    have hmissed := List.forall_mem_append.2
      ⟨hlook.misses, List.forall_mem_singleton.2 (show (Event.clock t).Misses
        r shows from trivial)⟩
    cases hlate : (Deadline.ofStart start timeout).reached t with
    | false => exact .pure (by simpa [Traces.Round] using hmissed)
    | true =>
      refine hc.after ?_
      rintro _ _ ⟨v', rfl, rfl⟩
      refine .pure ⟨by simpa using Waited.look hmissed v', fun hv' => ?_⟩
      exact ⟨start, seen ++ [.read r v], t, v', by simp, hlooked, hv',
        Deadline.reached_ofStart_iff.1 hlate⟩

end UsbHost
