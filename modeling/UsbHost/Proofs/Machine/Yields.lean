import UsbHost.Machine.Waiting

/-!
# What a program yields

`p.Yields T w Q` speaks about a program `p` started in the world `w`: whatever
it returns satisfies `Q` together with the world it leaves, and if `T` holds it
does return, to every observer who is patient enough.  With `T` false this is
partial correctness, with `T` true total correctness, and one proof serves for
both: a step that need not end has to be excluded by `T`, and nothing else.

## Main results

* `Yields.bind` — a sequence yields what its second part yields after the
  first.
* `Yields.loop` — a loop yields what its invariant implies at its end; if `T`
  holds, a measure has to fall in every round.
* `Machine.delay_returns_iff` — when a delay ends.
* `Machine.yields_waitUntil`, `Machine.yields_delay` — a wait for what is
  already so, and a delay.
-/

namespace UsbHost

variable {ρ σ α β : Type} {T : Prop}

namespace Run

/-- A sequence returns just if both of its parts do, one after the other. -/
theorem bind_eq_ok {p : Run ρ σ α} {f : α → Run ρ σ β} {n : Nat}
    {w w'' : World ρ σ} {b : β} :
    (p >>= f) n w = .ok b w'' ↔
      ∃ a w', p n w = .ok a w' ∧ f a n w' = .ok b w'' := by
  change EStateM.bind (p n) (fun a => f a n) w = _ ↔ _
  simp only [EStateM.bind]
  constructor
  · intro h
    split at h
    next a w' hp => exact ⟨a, w', hp, h⟩
    next => exact nomatch h
  · intro ⟨a, w', hp, hf⟩
    rw [hp]
    exact hf

/-- Every return of `p` from `w` satisfies `Q`, and if `T` holds there is one
that all sufficiently patient observers see. -/
def Yields (T : Prop) (p : Run ρ σ α) (w : World ρ σ)
    (Q : α → World ρ σ → Prop) : Prop :=
  (∀ n a w', p n w = .ok a w' → Q a w') ∧
    (T → ∃ a w' n, ∀ m, n ≤ m → p m w = .ok a w')

namespace Yields

variable {p : Run ρ σ α} {w : World ρ σ} {Q R : α → World ρ σ → Prop}

/-- What a returning run satisfies. -/
theorem of_run (h : p.Yields T w Q) {n : Nat} {a : α} {w' : World ρ σ}
    (hr : p n w = .ok a w') : Q a w' :=
  h.1 n a w' hr

/-- A total statement produces a run that satisfies it. -/
theorem exists_run (h : p.Yields T w Q) (ht : T) :
    ∃ a w' n, Q a w' ∧ ∀ m, n ≤ m → p m w = .ok a w' := by
  obtain ⟨a, w', n, hr⟩ := h.2 ht
  exact ⟨a, w', n, h.of_run (hr n (Nat.le_refl n)), hr⟩

theorem mono (h : p.Yields T w Q) (hQ : ∀ a w', Q a w' → R a w') :
    p.Yields T w R :=
  ⟨fun n a w' hr => hQ a w' (h.1 n a w' hr), h.2⟩

/-- What a program yields if it returns under a stronger condition. -/
theorem weaken {T' : Prop} (h : p.Yields T w Q) (ht : T' → T) :
    p.Yields T' w Q :=
  ⟨h.1, fun t => h.2 (ht t)⟩

theorem and (hQ : p.Yields T w Q) (hR : p.Yields T w R) :
    p.Yields T w fun a w' => Q a w' ∧ R a w' :=
  ⟨fun n a w' hr => ⟨hQ.1 n a w' hr, hR.1 n a w' hr⟩, hQ.2⟩

/-- A program that returns the same to every observer. -/
theorem of_eq {a : α} {w' : World ρ σ} (h : ∀ n, p n w = .ok a w')
    (hQ : Q a w') : p.Yields T w Q := by
  refine ⟨fun n b v hr => ?_, fun _ => ⟨a, w', 0, fun m _ => h m⟩⟩
  rw [h n] at hr
  cases hr
  exact hQ

/-- What does nothing yields its value. -/
theorem pure {a : α} (h : Q a w) :
    (Pure.pure a : Run ρ σ α).Yields T w Q :=
  of_eq (fun _ => rfl) h

/-- A sequence yields what its second part yields after the first. -/
theorem bind {f : α → Run ρ σ β} {S : β → World ρ σ → Prop}
    (h : p.Yields T w Q) (hf : ∀ a w', Q a w' → (f a).Yields T w' S) :
    (p >>= f).Yields T w S := by
  constructor
  · intro n b w'' hr
    obtain ⟨a, w', hp, hb⟩ := bind_eq_ok.1 hr
    exact (hf a w' (h.of_run hp)).of_run hb
  · intro ht
    obtain ⟨a, w', n, hQ, hp⟩ := h.exists_run ht
    obtain ⟨b, w'', n', hq⟩ := (hf a w' hQ).2 ht
    refine ⟨b, w'', max n n', fun m hm => ?_⟩
    exact bind_eq_ok.2 ⟨a, w', hp m (by omega), hq m (by omega)⟩

/-- If a program returns, it returns something. -/
theorem any (p : Run ρ σ α) (w : World ρ σ) :
    p.Yields False w fun _ _ => True :=
  ⟨fun _ _ _ _ => trivial, False.elim⟩

/-- What follows a program of which nothing is known. -/
theorem bind_any {f : α → Run ρ σ β} {S : β → World ρ σ → Prop}
    (hf : ∀ a w', (f a).Yields False w' S) : (p >>= f).Yields False w S :=
  (any p w).bind fun a w' _ => hf a w'

end Yields

/-! ## Loops -/

variable {body : β → Run ρ σ (β ⊕ α)} {Q : α → World ρ σ → Prop}

/-- What a round has to achieve: a result that satisfies `Q`, or the invariant
again, with a smaller measure if the loop has to end. -/
def Round (T : Prop) (I : β → World ρ σ → Prop) (μ : β → World ρ σ → Nat)
    (Q : α → World ρ σ → Prop) (size : Nat) :
    β ⊕ α → World ρ σ → Prop
  | .inl b, w => I b w ∧ (T → μ b w < size)
  | .inr a, w => Q a w

/-- However many rounds are granted, what they return satisfies `Q`. -/
theorem rounds_sound {I : β → World ρ σ → Prop} {μ : β → World ρ σ → Nat}
    (hbody : ∀ b w, I b w → (body b).Yields T w (Round T I μ Q (μ b w))) :
    ∀ j b w n a w', I b w → rounds j body b n w = .ok a w' → Q a w' := by
  intro j
  induction j with
  | zero => intro b w n a w' _ hr; exact nomatch hr
  | succ j ih =>
    intro b w n a w' hI hr
    rw [rounds_succ, bind_eq_ok] at hr
    obtain ⟨r, v, hb, hr⟩ := hr
    have hround := (hbody b w hI).of_run hb
    cases r with
    | inl b' => exact ih b' v n a w' hround.1 hr
    | inr c =>
      cases hr
      exact hround

/-- If the loop has to end, its measure bounds the rounds it takes. -/
theorem rounds_complete {I : β → World ρ σ → Prop} {μ : β → World ρ σ → Nat}
    (hbody : ∀ b w, I b w → (body b).Yields T w (Round T I μ Q (μ b w)))
    (ht : T) :
    ∀ size b w, I b w → μ b w < size →
      ∃ a w' n, ∀ m j, n ≤ m → size ≤ j → rounds j body b m w = .ok a w' := by
  intro size
  induction size with
  | zero => exact fun b w _ hμ => absurd hμ (Nat.not_lt_zero _)
  | succ size ih =>
    intro b w hI hμ
    obtain ⟨r, v, n, hround, hb⟩ := (hbody b w hI).exists_run ht
    cases r with
    | inl b' =>
      have hlt := hround.2 ht
      obtain ⟨a, w', n', hrest⟩ := ih b' v hround.1 (by omega)
      refine ⟨a, w', max n n', fun m j hm hj => ?_⟩
      obtain ⟨j, rfl⟩ : ∃ i, j = i + 1 := ⟨j - 1, by omega⟩
      rw [rounds_succ]
      exact bind_eq_ok.2
        ⟨.inl b', v, hb m (by omega), hrest m j (by omega) (by omega)⟩
    | inr a =>
      refine ⟨a, v, n, fun m j hm hj => ?_⟩
      obtain ⟨j, rfl⟩ : ∃ i, j = i + 1 := ⟨j - 1, by omega⟩
      rw [rounds_succ]
      exact bind_eq_ok.2 ⟨.inr a, v, hb m hm, rfl⟩

/-- A loop yields what its invariant implies at its end. -/
theorem Yields.loop (I : β → World ρ σ → Prop) (μ : β → World ρ σ → Nat)
    (hbody : ∀ b w, I b w → (body b).Yields T w (Round T I μ Q (μ b w)))
    {b : β} {w : World ρ σ} (hI : I b w) :
    (Run.loop body b).Yields T w Q := by
  refine ⟨fun n a w' hr => rounds_sound hbody n b w n a w' hI hr, fun ht => ?_⟩
  obtain ⟨a, w', n, hr⟩ :=
    rounds_complete hbody ht (μ b w + 1) b w hI (Nat.lt_succ_self _)
  exact ⟨a, w', max n (μ b w + 1), fun m hm => hr m m (by omega) (by omega)⟩

/-! ## Checked steps -/

/-- A program that stops without a result returns nothing. -/
theorem yields_throw {h : Halt} {w : World ρ σ} {Q : α → World ρ σ → Prop}
    (hT : ¬ T) : (throw h : Run ρ σ α).Yields T w Q :=
  ⟨fun _ _ _ hr => (nomatch hr), fun ht => absurd ht hT⟩

/-- A checked step returns only if its check succeeds. -/
theorem yields_check {c : Prop} [Decidable c] {a : α} {h : Halt}
    {w : World ρ σ} {Q : α → World ρ σ → Prop} (hT : T → c)
    (hQ : c → Q a w) :
    (if c then pure a else throw h : Run ρ σ α).Yields T w Q := by
  split
  next hc => exact .pure (hQ hc)
  next hc => exact yields_throw fun ht => hc (hT ht)

end Run

/-! ## Waiting -/

/-- The reading taken of a clock after `k` others. -/
def Clock.reading (c : Clock σ) : Nat → σ → Duration × σ
  | 0, env => c.now env
  | k + 1, env => c.reading k (c.now env).2

/-- The clock lets `d` pass: it can skip ahead, or some reading is later than
the first by as much, as far as there are such times. -/
def Clock.Passes (c : Clock σ) (d : Duration) (env : σ) : Prop :=
  c.skip.isSome = true ∨
    ∃ k, (c.now env).1.addCapped d ≤ (c.reading (k + 1) env).1

namespace Machine

variable (m : Machine ρ σ)

/-- Whether every delay comes to an end. -/
def DelaysReturn : Prop := ∀ d w, (m.delay d).Returns w

/-- A clock that can skip ahead ends every delay at once. -/
theorem delaysReturn_of_skip {skip : Duration → σ → σ}
    (h : m.clock.skip = some skip) : m.DelaysReturn := fun d w =>
  ⟨0, (), _, m.delay_of_skip h d 0 w⟩

/-- An observer with more patience sees a loop end as before, if its body does
the same for both. -/
theorem rounds_of_le {body : β → Run ρ σ (β ⊕ α)} {j j' n n' : Nat} {b : β}
    {w w' : World ρ σ} {a : α} (hbody : ∀ b w, body b n w = body b n' w)
    (hj : j ≤ j') (h : Run.rounds j body b n w = .ok a w') :
    Run.rounds j' body b n' w = .ok a w' := by
  induction j generalizing j' b w with
  | zero => exact nomatch h
  | succ j ih =>
    obtain ⟨j', rfl⟩ : ∃ i, j' = i + 1 := ⟨j' - 1, by omega⟩
    rw [Run.rounds_succ, Run.bind_eq_ok] at h ⊢
    obtain ⟨r, v, hb, h⟩ := h
    refine ⟨r, v, (hbody b w).symm.trans hb, ?_⟩
    cases r with
    | inl b' => exact ih (by omega) h
    | inr c => exact h

/-- A delay that returns returns to every more patient observer. -/
theorem delay_of_le {d : Duration} {n n' : Nat} {w w' : World ρ σ}
    (hn : n ≤ n') (h : m.delay d n w = .ok () w') :
    m.delay d n' w = .ok () w' := by
  cases hs : m.clock.skip with
  | some skip => simpa only [delay, hs] using h
  | none =>
    simp only [delay, hs] at h ⊢
    refine rounds_of_le ?_ hn h
    exact fun _ _ => rfl

/-- One round of a delay that takes readings until `finish`. -/
def readOn (finish : Duration) (_ : Unit) : Run ρ σ (Unit ⊕ Unit) := do
  let t ← m.now
  pure (if t < finish then .inl () else .inr ())

/-- As many readings as are granted reach `finish` just if one of them does. -/
theorem rounds_readOn_iff (finish : Duration) (n j : Nat) (w : World ρ σ) :
    (∃ w', Run.rounds j (m.readOn finish) () n w = .ok () w') ↔
      ∃ k < j, finish ≤ (m.clock.reading k w.env).1 := by
  induction j generalizing w with
  | zero =>
    constructor
    · intro ⟨w', h⟩
      exact nomatch h
    · intro ⟨k, hk, _⟩
      exact absurd hk k.not_lt_zero
  | succ j ih =>
    rw [Run.rounds_succ]
    by_cases hlate : finish ≤ (m.clock.now w.env).1
    · have hstop : m.readOn finish () n w = .ok (.inr ()) _ :=
        congrArg (EStateM.Result.ok · _) (if_neg (Nat.not_lt.2 hlate))
      constructor
      · intro _
        exact ⟨0, j.succ_pos, hlate⟩
      · intro _
        exact ⟨_, Run.bind_eq_ok.2 ⟨_, _, hstop, rfl⟩⟩
    · have hon : m.readOn finish () n w = .ok (.inl ()) _ :=
        congrArg (EStateM.Result.ok · _) (if_pos (Nat.lt_of_not_le hlate))
      constructor
      · intro ⟨w', h⟩
        obtain ⟨r, v, hround, hrest⟩ := Run.bind_eq_ok.1 h
        cases hon.symm.trans hround
        obtain ⟨k, hk, hreached⟩ := (ih _).1 ⟨w', hrest⟩
        exact ⟨k + 1, Nat.succ_lt_succ hk, hreached⟩
      · intro ⟨k, hk, hreached⟩
        cases k with
        | zero => exact absurd hreached hlate
        | succ k =>
          obtain ⟨w', hrest⟩ :=
            (ih ⟨(m.clock.now w.env).2, .clock (m.clock.now w.env).1 :: w.log⟩).2
              ⟨k, Nat.lt_of_succ_lt_succ hk, hreached⟩
          exact ⟨w', Run.bind_eq_ok.2 ⟨_, _, hon, hrest⟩⟩

/-- A delay returns just if the clock lets it pass. -/
theorem delay_returns_iff (d : Duration) (w : World ρ σ) :
    (m.delay d).Returns w ↔ m.clock.Passes d w.env := by
  unfold Clock.Passes
  cases hskip : m.clock.skip with
  | some skip =>
    have hreturns : (m.delay d).Returns w :=
      ⟨0, (), _, m.delay_of_skip hskip d 0 w⟩
    exact ⟨fun _ => .inl rfl, fun _ => hreturns⟩
  | none =>
    have hbusy : ∀ n w', m.delay d n w = .ok () w' ↔
        Run.rounds n (m.readOn ((m.clock.now w.env).1.addCapped d)) () n
          ⟨(m.clock.now w.env).2, .clock (m.clock.now w.env).1 :: w.log⟩ =
            .ok () w' := by
      intro n w'
      rw [delay, hskip]
      rfl
    constructor
    · rintro ⟨n, _, w', h⟩
      obtain ⟨k, -, hreached⟩ :=
        (m.rounds_readOn_iff _ n n _).1 ⟨w', (hbusy n w').1 h⟩
      exact .inr ⟨k, hreached⟩
    · intro hpasses
      obtain ⟨k, hreached⟩ := hpasses.resolve_left Bool.false_ne_true
      have hrounds := (m.rounds_readOn_iff _ (k + 1) (k + 1)
        ⟨(m.clock.now w.env).2, .clock (m.clock.now w.env).1 :: w.log⟩).2
          ⟨k, k.lt_succ_self, hreached⟩
      obtain ⟨w', h⟩ := hrounds
      exact ⟨k + 1, (), w', (hbusy _ w').2 h⟩

/-- What is kept by a reading of the clock is kept by a delay. -/
theorem yields_delay {P : World ρ σ → Prop} {d : Duration} {w : World ρ σ}
    (hT : T → m.DelaysReturn) (hw : P w)
    (hnow : ∀ w n t w', P w → m.now n w = .ok t w' → P w')
    (hskip : ∀ w skip, P w → m.clock.skip = some skip →
      P ⟨skip d w.env, .pause d :: w.log⟩) :
    (m.delay d).Yields T w fun _ w' => P w' := by
  refine ⟨?_, fun ht => ?_⟩
  · cases hs : m.clock.skip with
    | some skip =>
      intro n a w' hr
      rw [m.delay_of_skip hs] at hr
      cases hr
      exact hskip w skip hw hs
    | none =>
      have hnow' : ∀ w, P w → m.now.Yields False w fun _ w' => P w' :=
        fun w hw => ⟨fun n t w' hr => hnow w n t w' hw hr, False.elim⟩
      have hwait : (m.busyWait d).Yields False w fun _ w' => P w' := by
        refine (hnow' w hw).bind fun t v hv => ?_
        refine .loop (fun _ w => P w) (fun _ _ => 0) (fun _ u hu => ?_) hv
        refine (hnow' u hu).bind fun t v hv => .pure ?_
        split
        · exact ⟨hv, False.elim⟩
        · exact hv
      simpa only [delay, hs] using hwait.1
  · obtain ⟨n, u, w', hr⟩ := hT ht d w
    exact ⟨u, w', n, fun j hj => m.delay_of_le hj hr⟩

/-- A wait for a condition that holds at once takes one reading of the
clock. -/
theorem yields_waitUntil {P : World ρ σ → Prop} {timeout : Duration}
    {condition : Run ρ σ Bool} {w : World ρ σ}
    (hnow : m.now.Yields T w fun _ => P)
    (hc : ∀ w, P w → condition.Yields T w fun b w' => b = true ∧ P w') :
    (m.waitUntil timeout condition).Yields T w fun _ => P := by
  have hdeadline : (m.deadlineAfter timeout).Yields T w fun _ => P :=
    hnow.bind fun _ _ hw => .pure hw
  refine hdeadline.bind fun deadline w' hw' => ?_
  refine .loop (fun _ => P) (fun _ _ => 0) (fun _ w hw => ?_) hw'
  refine (hc w hw).bind fun b w' hb => ?_
  rw [hb.1]
  exact .pure hb.2

end Machine

end UsbHost
