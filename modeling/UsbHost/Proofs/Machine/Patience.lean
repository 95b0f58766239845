import UsbHost.Proofs.Machine.Traces

/-!
# What patience buys

An observer gives every loop the same number of rounds.  To tell whether a
program is bounded, it is not enough to know that some patience suffices; what
an observer sees whose patience is given has to be known.
`p.Observed n w Q H` says that an observer of patience `n` sees `p` return from
`w` as `Q` says, or gives it up, which then looks as `H` says.

## Main results

* `Observed.bind` — sequences.
* `Observed.loop` — a loop ends, or comes through as many rounds as the observer
  has patience for.
* `Observed.and_traces` — what is known of the program for other reasons.
-/

namespace UsbHost.Run

variable {ρ σ α β : Type}

/-- An observer of patience `n` sees the program return, so that what has
happened until then, the result and the world satisfy `Q`, or gives it up where
what has happened and the world satisfy `H`. -/
def Observed (n : Nat) (p : Run ρ σ α) (w : World ρ σ)
    (Q : List (Event ρ) → α → World ρ σ → Prop)
    (H : List (Event ρ) → World ρ σ → Prop) : Prop :=
  ∃ events w', w.Through events w' ∧
    ((∃ a, p n w = .ok a w' ∧ Q events a w') ∨
      p n w = .error .unfinished w' ∧ H events w')

namespace Observed

variable {n : Nat} {p : Run ρ σ α} {w : World ρ σ}
  {Q R : List (Event ρ) → α → World ρ σ → Prop}
  {G H : List (Event ρ) → World ρ σ → Prop}

theorem pure {a : α} (h : Q [] a w) :
    (Pure.pure a : Run ρ σ α).Observed n w Q H :=
  ⟨[], w, .refl w, .inl ⟨a, rfl, h⟩⟩

/-- A program that is a single event. -/
theorem event {a : α} {env : σ} {e : Event ρ}
    (hp : p n w = .ok a ⟨env, e :: w.log⟩)
    (h : Q [e] a ⟨env, e :: w.log⟩) : p.Observed n w Q H :=
  ⟨[e], ⟨env, e :: w.log⟩, rfl, .inl ⟨a, hp, h⟩⟩

theorem mono (h : p.Observed n w Q H)
    (hQ : ∀ events a w', Q events a w' → R events a w') :
    p.Observed n w R H := by
  obtain ⟨events, w', hevents, ⟨a, hrun, ha⟩ | hstop⟩ := h
  · exact ⟨events, w', hevents, .inl ⟨a, hrun, hQ _ _ _ ha⟩⟩
  · exact ⟨events, w', hevents, .inr hstop⟩

theorem weaken (h : p.Observed n w Q G)
    (hG : ∀ events w', G events w' → H events w') : p.Observed n w Q H := by
  obtain ⟨events, w', hevents, hends | ⟨hrun, hstop⟩⟩ := h
  · exact ⟨events, w', hevents, .inl hends⟩
  · exact ⟨events, w', hevents, .inr ⟨hrun, hG _ _ hstop⟩⟩

/-- What every run of the program does besides. -/
theorem and_traces {S : List (Event ρ) → α → Prop}
    {T : List (Event ρ) → Prop} (h : p.Observed n w Q H) (hS : p.Traces S T) :
    p.Observed n w (fun events a w' => S events a ∧ Q events a w') H := by
  obtain ⟨events, w', hevents, ⟨a, hrun, ha⟩ | hstop⟩ := h
  · exact ⟨events, w', hevents,
      .inl ⟨a, hrun, hS.of_through hrun hevents, ha⟩⟩
  · exact ⟨events, w', hevents, .inr hstop⟩

/-- A sequence is given up where its first part is, or where its second part
is. -/
theorem bind {f : α → Run ρ σ β}
    {S : List (Event ρ) → β → World ρ σ → Prop} (hp : p.Observed n w Q G)
    (hG : ∀ events w', G events w' → H events w')
    (hf : ∀ events a w', Q events a w' → (f a).Observed n w'
      (fun later => S (events ++ later)) fun later => H (events ++ later)) :
    (p >>= f).Observed n w S H := by
  obtain ⟨events, v, hevents, ⟨a, hrun, ha⟩ | ⟨hrun, hstop⟩⟩ := hp
  · obtain ⟨later, w', hlater, ⟨b, hrest, hb⟩ | ⟨hrest, hstop⟩⟩ :=
      hf events a v ha
    · exact ⟨events ++ later, w', hevents.trans hlater,
        .inl ⟨b, bind_eq_ok.2 ⟨a, v, hrun, hrest⟩, hb⟩⟩
    · exact ⟨events ++ later, w', hevents.trans hlater,
        .inr ⟨bind_eq_error.2 (.inr ⟨a, v, hrun, hrest⟩), hstop⟩⟩
  · exact ⟨events, v, hevents,
      .inr ⟨bind_eq_error.2 (.inl hrun), hG _ _ hstop⟩⟩

/-- What follows a program that returns. -/
theorem after {f : α → Run ρ σ β}
    {S : List (Event ρ) → β → World ρ σ → Prop}
    (hp : p.Observed n w Q fun _ _ => False)
    (hf : ∀ events a w', Q events a w' → (f a).Observed n w'
      (fun later => S (events ++ later)) fun later => H (events ++ later)) :
    (p >>= f).Observed n w S H :=
  hp.bind (fun _ _ h => h.elim) hf

/-- What a round has to come to, after everything that was seen before it: what
the next round begins with, or a result. -/
def Round (I : List (Event ρ) → β → World ρ σ → Prop)
    (Q : List (Event ρ) → α → World ρ σ → Prop) (seen : List (Event ρ)) :
    β ⊕ α → World ρ σ → Prop
  | .inl b, w => I seen b w
  | .inr a, w => Q seen a w

/-- A loop ends in one of its rounds, or comes through all that the observer has
patience for.  `I k` is what `k` rounds leave behind. -/
theorem loop {body : β → Run ρ σ (β ⊕ α)}
    (I : Nat → List (Event ρ) → β → World ρ σ → Prop)
    (hstop : ∀ seen b v, I n seen b v → H seen v)
    (hbody : ∀ k seen b v, k < n → I k seen b v → (body b).Observed n v
      (fun events => Round (I (k + 1)) Q (seen ++ events))
      fun events => H (seen ++ events))
    {b : β} (hb : I 0 [] b w) : (Run.loop body b).Observed n w Q H := by
  have hrounds : ∀ j k seen b v, k + j = n → I k seen b v →
      (rounds j body b).Observed n v (fun events => Q (seen ++ events))
        fun events => H (seen ++ events) := by
    intro j
    induction j with
    | zero =>
      rintro k seen b v rfl hI
      have hgiven := hstop seen b v hI
      rw [← List.append_nil seen] at hgiven
      exact ⟨[], v, .refl v, .inr ⟨rfl, hgiven⟩⟩
    | succ j ih =>
      intro k seen b v hk hI
      rw [rounds_succ]
      refine (hbody k seen b v (by omega) hI).bind (fun _ _ h => h) ?_
      intro events r v' hr
      cases r with
      | inl b' =>
        have hrest := ih (k + 1) (seen ++ events) b' v' (by omega) hr
        simpa only [List.append_assoc] using hrest
      | inr a =>
        refine .pure ?_
        rw [List.append_nil]
        exact hr
  exact hrounds n 0 [] b w (Nat.zero_add n) hb

end Observed

end UsbHost.Run
