import UsbHost.Proofs.Machine.Always

/-!
# Programs that return or go on for ever

A loop that watches a clock ends on every hardware; a loop that watches nothing
but a status bit ends only if the hardware lets it.  `p.Persists E w` says that
the program does not end, and what it is that does not: from some point on it
does nothing but events of the kind `E`, without end.  `p.Resolves E w Q` says
that the program returns, with something that satisfies `Q`, unless this
happens.

## Main results

* `Resolves.bind` — a sequence resolves as its parts do.
* `Resolves.loop` — a loop whose measure falls resolves as its body does.
* `Resolves.unbounded_loop` — a loop without a measure resolves if every round
  of it does only events of the kind, and at least one of them.
-/

namespace UsbHost.Run

variable {ρ σ α β : Type} {E : Event ρ → Prop}

/-! ## Going on for ever -/

/-- The program is stopped by its observer, with at least `n` events since the
log was `log`, all of the kind `E`. -/
def Interrupted (E : Event ρ → Prop) (log : List (Event ρ)) (n : Nat)
    (result : EStateM.Result Halt (World ρ σ) α) : Prop :=
  ∃ w' events, result = .error .unfinished w' ∧ w'.log = events ++ log ∧
    n ≤ events.length ∧ ∀ e ∈ events, E e

/-- The program does not end: from some point on it does nothing but events of
the kind `E`, and the more of them the more patient its observer is. -/
def Persists (E : Event ρ → Prop) (p : Run ρ σ α) (w : World ρ σ) : Prop :=
  ∃ log, ∀ n, ∃ enough, ∀ patience, enough ≤ patience →
    Interrupted E log n (p patience w)

/-- Every sufficiently patient observer sees the program return, with something
that satisfies `Q`, unless it persists in events of the kind `E`. -/
def Resolves (E : Event ρ → Prop) (p : Run ρ σ α) (w : World ρ σ)
    (Q : α → World ρ σ → Prop) : Prop :=
  (∃ a w' enough, (∀ patience, enough ≤ patience → p patience w = .ok a w') ∧
    Q a w') ∨ p.Persists E w

section Interrupted

variable {log : List (Event ρ)} {n m : Nat} {w w' : World ρ σ}

/-- A sequence is stopped where its first part is. -/
theorem Interrupted.first {p : Run ρ σ α} (f : α → Run ρ σ β)
    (h : Interrupted E log n (p m w)) :
    Interrupted E log n ((p >>= f) m w) := by
  obtain ⟨v, events, hstop, hrest⟩ := h
  exact ⟨v, events, bind_eq_error.2 (.inl hstop), hrest⟩

/-- A sequence whose first part returns is stopped where its second one is. -/
theorem Interrupted.second {p : Run ρ σ α} {f : α → Run ρ σ β} {a : α}
    (hp : p m w = .ok a w') (h : Interrupted E log n (f a m w')) :
    Interrupted E log n ((p >>= f) m w) := by
  obtain ⟨v, events, hstop, hrest⟩ := h
  exact ⟨v, events, bind_eq_error.2 (.inr ⟨a, w', hp, hstop⟩), hrest⟩

end Interrupted

namespace Resolves

variable {p : Run ρ σ α} {w : World ρ σ} {Q R : α → World ρ σ → Prop}

/-- What returns in any case. -/
theorem of_yields (h : p.Yields True w Q) : p.Resolves E w Q := by
  obtain ⟨a, w', enough, hQ, hrun⟩ := h.exists_run trivial
  exact .inl ⟨a, w', enough, hrun, hQ⟩

theorem pure {a : α} (h : Q a w) :
    (Pure.pure a : Run ρ σ α).Resolves E w Q :=
  of_yields (.pure h)

theorem mono (h : p.Resolves E w Q) (hQ : ∀ a w', Q a w' → R a w') :
    p.Resolves E w R := by
  rcases h with ⟨a, w', enough, hrun, ha⟩ | hstuck
  · exact .inl ⟨a, w', enough, hrun, hQ a w' ha⟩
  · exact .inr hstuck

/-- Events of one kind may count as events of another. -/
theorem weaken {E' : Event ρ → Prop} (h : p.Resolves E w Q)
    (hE : ∀ e, E e → E' e) : p.Resolves E' w Q := by
  rcases h with hreturns | ⟨log, hstuck⟩
  · exact .inl hreturns
  · refine .inr ⟨log, fun n => ?_⟩
    obtain ⟨enough, hstuck⟩ := hstuck n
    refine ⟨enough, fun m hm => ?_⟩
    obtain ⟨w', events, hstop, hlog, hlength, hall⟩ := hstuck m hm
    exact ⟨w', events, hstop, hlog, hlength, fun e he => hE e (hall e he)⟩

/-- What is known of every result besides. -/
theorem and_yields (h : p.Resolves E w Q) (hR : p.Yields False w R) :
    p.Resolves E w fun a w' => R a w' ∧ Q a w' := by
  rcases h with ⟨a, w', enough, hrun, ha⟩ | hstuck
  · have hr := hR.of_run (hrun enough (Nat.le_refl enough))
    exact .inl ⟨a, w', enough, hrun, hr, ha⟩
  · exact .inr hstuck

/-- What cannot return goes on for ever. -/
theorem persists (h : p.Resolves E w fun _ _ => False) : p.Persists E w := by
  rcases h with ⟨_, _, _, _, hfalse⟩ | hstuck
  · exact hfalse.elim
  · exact hstuck

/-- What cannot go on for ever returns. -/
theorem exists_run (h : p.Resolves (fun _ => False) w Q) :
    ∃ a w' enough, (∀ patience, enough ≤ patience → p patience w = .ok a w') ∧
      Q a w' := by
  rcases h with hreturns | ⟨log, hstuck⟩
  · exact hreturns
  · obtain ⟨enough, hstuck⟩ := hstuck 1
    obtain ⟨w', events, -, -, hlength, hall⟩ :=
      hstuck enough (Nat.le_refl enough)
    cases events with
    | nil => exact absurd hlength (Nat.not_succ_le_zero 0)
    | cons e rest => exact (hall e List.mem_cons_self).elim

theorem bind {f : α → Run ρ σ β} {S : β → World ρ σ → Prop}
    (h : p.Resolves E w Q) (hf : ∀ a w', Q a w' → (f a).Resolves E w' S) :
    (p >>= f).Resolves E w S := by
  rcases h with ⟨a, w', enough, hrun, ha⟩ | ⟨log, hstuck⟩
  · rcases hf a w' ha with ⟨b, w'', enough', hrest, hb⟩ | ⟨log, hstuck⟩
    · refine .inl ⟨b, w'', max enough enough', fun m hm => ?_, hb⟩
      exact bind_eq_ok.2 ⟨a, w', hrun m (by omega), hrest m (by omega)⟩
    · refine .inr ⟨log, fun n => ?_⟩
      obtain ⟨enough', hstuck⟩ := hstuck n
      refine ⟨max enough enough', fun m hm => ?_⟩
      exact .second (hrun m (by omega)) (hstuck m (by omega))
  · refine .inr ⟨log, fun n => ?_⟩
    obtain ⟨enough, hstuck⟩ := hstuck n
    exact ⟨enough, fun m hm => (hstuck m hm).first f⟩

end Resolves

/-! ## Loops with a measure -/

section Loop

variable {body : β → Run ρ σ (β ⊕ α)} {Q : α → World ρ σ → Prop}

/-- As many rounds as the measure allows resolve as the loop does. -/
theorem rounds_resolve {I : β → World ρ σ → Prop} {μ : β → World ρ σ → Nat}
    (hbody : ∀ b w, I b w →
      (body b).Resolves E w (Round True I μ Q (μ b w))) :
    ∀ size b w, I b w → μ b w < size →
      (∃ a w' enough, (∀ m j, enough ≤ m → size ≤ j →
        rounds j body b m w = .ok a w') ∧ Q a w') ∨
      ∃ log, ∀ n, ∃ enough, ∀ m j, enough ≤ m → size ≤ j →
        Interrupted E log n (rounds j body b m w) := by
  intro size
  induction size with
  | zero => exact fun b w _ hμ => absurd hμ (Nat.not_lt_zero _)
  | succ size ih =>
    intro b w hI hμ
    rcases hbody b w hI with ⟨r, v, enough, hb, hround⟩ | ⟨log, hstuck⟩
    · cases r with
      | inl b' =>
        have hlt := hround.2 trivial
        rcases ih b' v hround.1 (by omega) with
          ⟨a, w', enough', hrest, hQ⟩ | ⟨log, hstuck⟩
        · refine .inl ⟨a, w', max enough enough', fun m j hm hj => ?_, hQ⟩
          obtain ⟨j, rfl⟩ : ∃ i, j = i + 1 := ⟨j - 1, by omega⟩
          rw [rounds_succ]
          exact bind_eq_ok.2
            ⟨.inl b', v, hb m (by omega), hrest m j (by omega) (by omega)⟩
        · refine .inr ⟨log, fun n => ?_⟩
          obtain ⟨enough', hstuck⟩ := hstuck n
          refine ⟨max enough enough', fun m j hm hj => ?_⟩
          obtain ⟨j, rfl⟩ : ∃ i, j = i + 1 := ⟨j - 1, by omega⟩
          rw [rounds_succ]
          exact .second (hb m (by omega)) (hstuck m j (by omega) (by omega))
      | inr a =>
        refine .inl ⟨a, v, enough, fun m j hm hj => ?_, hround⟩
        obtain ⟨j, rfl⟩ : ∃ i, j = i + 1 := ⟨j - 1, by omega⟩
        rw [rounds_succ]
        exact bind_eq_ok.2 ⟨.inr a, v, hb m hm, rfl⟩
    · refine .inr ⟨log, fun n => ?_⟩
      obtain ⟨enough, hstuck⟩ := hstuck n
      refine ⟨enough, fun m j hm hj => ?_⟩
      obtain ⟨j, rfl⟩ : ∃ i, j = i + 1 := ⟨j - 1, by omega⟩
      rw [rounds_succ]
      exact (hstuck m hm).first _

/-- A loop with a measure can go on for ever only inside one of its rounds. -/
theorem Resolves.loop (I : β → World ρ σ → Prop) (μ : β → World ρ σ → Nat)
    (hbody : ∀ b w, I b w →
      (body b).Resolves E w (Round True I μ Q (μ b w)))
    {b : β} {w : World ρ σ} (hI : I b w) :
    (Run.loop body b).Resolves E w Q := by
  rcases rounds_resolve hbody (μ b w + 1) b w hI (Nat.lt_succ_self _) with
    ⟨a, w', enough, hrun, hQ⟩ | ⟨log, hstuck⟩
  · refine .inl ⟨a, w', max enough (μ b w + 1), fun m hm => ?_, hQ⟩
    exact hrun m m (by omega) (by omega)
  · refine .inr ⟨log, fun n => ?_⟩
    obtain ⟨enough, hstuck⟩ := hstuck n
    exact ⟨max enough (μ b w + 1),
      fun m hm => hstuck m m (by omega) (by omega)⟩

end Loop

/-! ## Loops without a measure -/

/-- To every observer the program returns the same, something that satisfies
`Q`, by events of the kind `E` alone. -/
def Does (E : Event ρ → Prop) (p : Run ρ σ α) (w : World ρ σ)
    (Q : List (Event ρ) → α → World ρ σ → Prop) : Prop :=
  ∃ a w' events, (∀ m, p m w = .ok a w') ∧ w'.log = events ++ w.log ∧
    (∀ e ∈ events, E e) ∧ Q events a w'

namespace Does

variable {p : Run ρ σ α} {w : World ρ σ}
  {Q : List (Event ρ) → α → World ρ σ → Prop}

theorem pure {a : α} (h : Q [] a w) : (Pure.pure a : Run ρ σ α).Does E w Q :=
  ⟨a, w, [], fun _ => rfl, rfl, nofun, h⟩

/-- A program that is a single event. -/
theorem event {a : α} {env : σ} {e : Event ρ}
    (hp : ∀ m, p m w = .ok a ⟨env, e :: w.log⟩) (he : E e)
    (h : Q [e] a ⟨env, e :: w.log⟩) : p.Does E w Q := by
  refine ⟨a, _, [e], hp, rfl, ?_, h⟩
  intro e' hmem
  rw [List.mem_singleton.1 hmem]
  exact he

theorem bind {f : α → Run ρ σ β} {S : List (Event ρ) → β → World ρ σ → Prop}
    (hp : p.Does E w Q) (hf : ∀ events a w', Q events a w' →
      (f a).Does E w' fun later => S (later ++ events)) :
    (p >>= f).Does E w S := by
  obtain ⟨a, w', events, hrun, hlog, hall, hQ⟩ := hp
  obtain ⟨b, w'', later, hrest, hlater, hall', hS⟩ := hf events a w' hQ
  refine ⟨b, w'', later ++ events, fun m => ?_, ?_, ?_, hS⟩
  · exact bind_eq_ok.2 ⟨a, w', hrun m, hrest m⟩
  · rw [hlater, hlog, List.append_assoc]
  · intro e he
    rcases List.mem_append.1 he with hmem | hmem
    · exact hall' e hmem
    · exact hall e hmem

end Does

section Unbounded

variable {body : β → Run ρ σ (β ⊕ α)} {I : β → World ρ σ → Prop}
  {Q : α → World ρ σ → Prop}

/-- What a round of a loop without a measure comes to: a result, or the
invariant again after at least one event. -/
def Continues (I : β → World ρ σ → Prop) (Q : α → World ρ σ → Prop)
    (events : List (Event ρ)) : β ⊕ α → World ρ σ → Prop
  | .inl b, w => I b w ∧ events ≠ []
  | .inr a, w => Q a w

/-- After `j` rounds the loop has ended, or done at least `j` events. -/
theorem rounds_continue
    (hbody : ∀ b w, I b w → (∃ a w', (∀ m, body b m w = .ok (.inr a) w') ∧
      Q a w') ∨ (body b).Does E w (Continues I Q)) :
    ∀ j b w, I b w →
      (∃ a w', (∀ m, rounds j body b m w = .ok a w') ∧ Q a w') ∨
        ∀ m, Interrupted E w.log j (rounds j body b m w) := by
  intro j
  induction j with
  | zero =>
    intro b w _
    exact .inr fun _ => ⟨w, [], rfl, rfl, Nat.zero_le 0, nofun⟩
  | succ j ih =>
    intro b w hI
    rw [rounds_succ]
    rcases hbody b w hI with
      ⟨a, w', hrun, hQ⟩ | ⟨r, v, events, hrun, hlog, hall, hround⟩
    · exact .inl ⟨a, w', fun m => bind_eq_ok.2 ⟨.inr a, w', hrun m, rfl⟩, hQ⟩
    · cases r with
      | inr a =>
        exact .inl ⟨a, v, fun m => bind_eq_ok.2 ⟨.inr a, v, hrun m, rfl⟩,
          hround⟩
      | inl b' =>
        obtain ⟨hI', hne⟩ := hround
        have hpos := List.length_pos_iff.2 hne
        rcases ih b' v hI' with ⟨a, w', hrest, hQ⟩ | hrest
        · exact .inl ⟨a, w', fun m =>
            bind_eq_ok.2 ⟨.inl b', v, hrun m, hrest m⟩, hQ⟩
        · refine .inr fun m => .second (hrun m) ?_
          obtain ⟨w', later, hstop, hlater, hlength, hall'⟩ := hrest m
          refine ⟨w', later ++ events, hstop, ?_, ?_, ?_⟩
          · rw [hlater, hlog, List.append_assoc]
          · rw [List.length_append]
            omega
          · intro e he
            rcases List.mem_append.1 he with hmem | hmem
            · exact hall' e hmem
            · exact hall e hmem

/-- A loop each round of which ends it, or does at least one event and only
events of the kind `E`. -/
theorem Resolves.unbounded_loop
    (hbody : ∀ b w, I b w → (∃ a w', (∀ m, body b m w = .ok (.inr a) w') ∧
      Q a w') ∨ (body b).Does E w (Continues I Q))
    {b : β} {w : World ρ σ} (hI : I b w) :
    (Run.loop body b).Resolves E w Q := by
  -- Either some number of rounds ends the loop, for every observer alike, or
  -- each number of them does at least as many events.
  by_cases hends : ∃ j a w', (∀ m, rounds j body b m w = .ok a w') ∧ Q a w'
  · obtain ⟨j, a, w', hrun, hQ⟩ := hends
    refine .inl ⟨a, w', j, fun m hm => ?_, hQ⟩
    exact Machine.rounds_of_le (fun _ _ => rfl) hm (hrun m)
  · refine .inr ⟨w.log, fun n => ⟨n, fun m hm => ?_⟩⟩
    rcases rounds_continue hbody m b w hI with ⟨a, w', hrun, hQ⟩ | hstuck
    · exact absurd ⟨m, a, w', hrun, hQ⟩ hends
    · obtain ⟨w', events, hstop, hlog, hlength, hall⟩ := hstuck m
      exact ⟨w', events, hstop, hlog, Nat.le_trans hm hlength, hall⟩

end Unbounded

end UsbHost.Run
