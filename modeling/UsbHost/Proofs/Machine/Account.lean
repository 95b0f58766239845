import UsbHost.Proofs.Machine.Always

/-!
# What a bounded wait has looked at

A bounded wait looks at its condition and at the clock in turn, and what it does
next depends on nothing else.  The log tells its readings of the clock, but not
what came of the checks: a condition is a program of its own, which may do
anything on the bus or nothing at all.  So the wait is run on a machine with an
account beside the environment, in which every reading and the outcome of every
check is entered.  No program can see the account; a run with it is the run
without it, whatever becomes of it.

## Main results

* `Forgets.bind`, `Forgets.loop` — sequences and loops with an account.
* `Machine.forgets_waitUntil` — the account does not change a wait.
* `Machine.always_waitUntil` — what is in the account when a wait ends, or stops
  without a result.
* `Concluded.met_iff`, `Concluded.given_up` — what a wait has looked at when it
  ends.
-/

namespace UsbHost

variable {ρ σ α β : Type}

/-- What a wait does: it checks its condition, or it takes a reading of the
clock. -/
inductive Look where
  | check (met : Bool)
  | reading (t : Duration)
deriving DecidableEq

/-! ## Accounts -/

namespace World

/-- The world without its account. -/
def forget (w : World ρ (σ × List Look)) : World ρ σ := ⟨w.env.1, w.log⟩

/-- The world with an account in which nothing is entered. -/
def opened (w : World ρ σ) : World ρ (σ × List Look) := ⟨(w.env, []), w.log⟩

end World

/-- The machine with an account of what its clock shows. -/
def Machine.accounted (m : Machine ρ σ) : Machine ρ (σ × List Look) where
  bus :=
    { read := fun r s => let (v, env) := m.bus.read r s.1; (v, env, s.2)
      write := fun r v s => (m.bus.write r v s.1, s.2)
      barrier := fun s => (m.bus.barrier s.1, s.2) }
  clock :=
    { now := fun s =>
        let (t, env) := m.clock.now s.1; (t, env, s.2 ++ [.reading t])
      skip := m.clock.skip.map fun f d s => (f d s.1, s.2) }

namespace Run

/-- The condition, whose outcome is entered in the account if it has one. -/
def accounted (condition : Run ρ σ Bool) : Run ρ (σ × List Look) Bool :=
  fun n w =>
    match condition n w.forget with
    | .ok met v => .ok met ⟨(v.env, w.env.2 ++ [.check met]), v.log⟩
    | .error e v => .error e ⟨(v.env, w.env.2), v.log⟩

/-- What becomes of a program, apart from the account. -/
def forgotten :
    EStateM.Result Halt (World ρ (σ × List Look)) α →
      EStateM.Result Halt (World ρ σ) α
  | .ok a w => .ok a w.forget
  | .error e w => .error e w.forget

/-- Apart from the account, `p` is the program `q`. -/
def Forgets (p : Run ρ (σ × List Look) α) (q : Run ρ σ α) : Prop :=
  ∀ n w, forgotten (p n w) = q n w.forget

namespace Forgets

/-- A result without the account is one with it. -/
theorem exists_ok {p : Run ρ (σ × List Look) α} {q : Run ρ σ α}
    (hp : Forgets p q) {n : Nat} {w : World ρ (σ × List Look)} {a : α}
    {w' : World ρ σ} (h : q n w.forget = .ok a w') :
    ∃ v, p n w = .ok a v ∧ v.forget = w' := by
  have hrun := (hp n w).trans h
  cases hpw : p n w with
  | ok b v =>
    rw [hpw] at hrun
    cases hrun
    exact ⟨v, rfl, rfl⟩
  | error e v =>
    rw [hpw] at hrun
    exact nomatch hrun

/-- What stops without the account stops with it. -/
theorem exists_error {p : Run ρ (σ × List Look) α} {q : Run ρ σ α}
    (hp : Forgets p q) {n : Nat} {w : World ρ (σ × List Look)} {e : Halt}
    {w' : World ρ σ} (h : q n w.forget = .error e w') :
    ∃ v, p n w = .error e v ∧ v.forget = w' := by
  have hrun := (hp n w).trans h
  cases hpw : p n w with
  | ok a v =>
    rw [hpw] at hrun
    exact nomatch hrun
  | error e' v =>
    rw [hpw] at hrun
    cases hrun
    exact ⟨v, rfl, rfl⟩

theorem pure (a : α) :
    Forgets (Pure.pure a : Run ρ (σ × List Look) α) (Pure.pure a) :=
  fun _ _ => rfl

theorem bind {p : Run ρ (σ × List Look) α} {q : Run ρ σ α}
    {f : α → Run ρ (σ × List Look) β} {g : α → Run ρ σ β} (hp : Forgets p q)
    (hf : ∀ a, Forgets (f a) (g a)) : Forgets (p >>= f) (q >>= g) := by
  intro n w
  have hpw := hp n w
  change forgotten (EStateM.bind (p n) (fun a => f a n) w) =
    EStateM.bind (q n) (fun a => g a n) w.forget
  unfold EStateM.bind
  rw [← hpw]
  cases p n w with
  | ok a v => exact hf a n v
  | error e v => rfl

theorem rounds {body : β → Run ρ (σ × List Look) (β ⊕ α)}
    {body' : β → Run ρ σ (β ⊕ α)} (hbody : ∀ b, Forgets (body b) (body' b))
    (j : Nat) (b : β) : Forgets (rounds j body b) (Run.rounds j body' b) := by
  induction j generalizing b with
  | zero => exact fun _ _ => rfl
  | succ j ih =>
    rw [rounds_succ, rounds_succ]
    refine (hbody b).bind fun r => ?_
    cases r with
    | inl b' => exact ih b'
    | inr a => exact .pure a

theorem loop {body : β → Run ρ (σ × List Look) (β ⊕ α)}
    {body' : β → Run ρ σ (β ⊕ α)} (hbody : ∀ b, Forgets (body b) (body' b))
    (b : β) : Forgets (loop body b) (Run.loop body' b) :=
  fun n w => rounds hbody n b n w

theorem accounted (condition : Run ρ σ Bool) :
    Forgets condition.accounted condition := by
  intro n w
  unfold Run.accounted
  cases condition n w.forget <;> rfl

end Forgets

end Run

open Run

namespace Machine

variable (m : Machine ρ σ)

theorem forgets_now : Forgets m.accounted.now m.now := fun _ _ => rfl

/-- A wait is the same with an account and without. -/
theorem forgets_waitUntil (timeout : Duration) (condition : Run ρ σ Bool) :
    Forgets (m.accounted.waitUntil timeout condition.accounted)
      (m.waitUntil timeout condition) := by
  have hexpired (d : Deadline) :
      Forgets (m.accounted.expired d) (m.expired d) := by
    unfold expired
    split
    · exact m.forgets_now.bind fun _ => .pure _
    · exact .pure _
  refine (m.forgets_now.bind fun _ => .pure _).bind fun d => ?_
  refine .loop (fun _ => ?_) ()
  refine (Forgets.accounted condition).bind fun met => ?_
  cases met with
  | true => exact .pure _
  | false =>
    refine (hexpired d).bind fun late => ?_
    cases late with
    | true => exact (Forgets.accounted condition).bind fun _ => .pure _
    | false => exact .pure _

end Machine

/-! ## The looks of a wait -/

section Looks

variable (start timeout : Duration)

/-- The looks of a wait that is not over.  It began at `start`; each check has
failed, and after it the clock was found to be before the deadline, or was not
read because no clock can show the deadline. -/
inductive Ongoing : List Look → Prop where
  | begun : Ongoing [.reading start]
  | unread {looks : List Look} (before : Ongoing looks)
      (never : Duration.longest.nanos < start.nanos + timeout.nanos) :
      Ongoing (looks ++ [.check false])
  | early {looks : List Look} {t : Duration} (before : Ongoing looks)
      (comes : start.nanos + timeout.nanos ≤ Duration.longest.nanos)
      (early : t.nanos < start.nanos + timeout.nanos) :
      Ongoing (looks ++ [.check false, .reading t])

/-- The looks of a wait that has ended, and its result.  It ended with the first
check that was met, or with the one that followed a reading at the deadline or
behind it. -/
inductive Concluded : List Look → Bool → Prop where
  | met {looks : List Look} (before : Ongoing start timeout looks) :
      Concluded (looks ++ [.check true]) true
  | late {looks : List Look} {t : Duration}
      (before : Ongoing start timeout looks)
      (late : start.nanos + timeout.nanos ≤ t.nanos) (met : Bool) :
      Concluded (looks ++ [.check false, .reading t, .check met]) met

/-- The looks of a wait that stops without a result: while it is waiting, or in
the check that follows a late reading. -/
inductive Stopped : List Look → Prop where
  | waiting {looks : List Look} (before : Ongoing start timeout looks) :
      Stopped looks
  | late {looks : List Look} {t : Duration}
      (before : Ongoing start timeout looks)
      (late : start.nanos + timeout.nanos ≤ t.nanos) :
      Stopped (looks ++ [.check false, .reading t])

variable {start timeout} {looks : List Look} {met : Bool}

/-- While a wait goes on, no check has been met. -/
theorem Ongoing.not_met (h : Ongoing start timeout looks) :
    Look.check true ∉ looks := by
  induction h with
  | begun => simp
  | unread _ _ ih => simp [ih]
  | early _ _ _ ih => simp [ih]

theorem Stopped.not_met (h : Stopped start timeout looks) :
    Look.check true ∉ looks := by
  cases h with
  | waiting before => exact before.not_met
  | late before => simp [before.not_met]

/-- A wait is met just if one of its checks was. -/
theorem Concluded.met_iff (h : Concluded start timeout looks met) :
    met = true ↔ Look.check true ∈ looks := by
  cases h with
  | met before => simp
  | late before late met => simp [before.not_met, eq_comm]

/-- A wait is given up with a check that failed after a late reading. -/
theorem Concluded.given_up (h : Concluded start timeout looks false) :
    ∃ before t, looks = before ++ [.reading t, .check false] ∧
      start.nanos + timeout.nanos ≤ t.nanos := by
  cases h with
  | @late before t _ late =>
    refine ⟨before ++ [.check false], t, ?_, late⟩
    rw [List.append_assoc]
    rfl

end Looks

/-! ## Waits with an account -/

namespace Machine

variable (m : Machine ρ σ)

/-- What the clock shows. -/
def shown (s : σ) : Duration := (m.clock.now s).1

/-- A reading is entered in the account. -/
theorem always_now {w : World ρ (σ × List Look)}
    {H : World ρ (σ × List Look) → Prop} :
    m.accounted.now.Always w (fun t v => t = m.shown w.env.1 ∧
      v.env.2 = w.env.2 ++ [.reading t]) H :=
  .of_eq (fun _ => rfl) ⟨rfl, rfl⟩

/-- The deadline of a wait is fixed by a reading. -/
theorem always_deadlineAfter (timeout : Duration)
    {w : World ρ (σ × List Look)} {H : World ρ (σ × List Look) → Prop} :
    (m.accounted.deadlineAfter timeout).Always w (fun d v =>
      d = .ofStart (m.shown w.env.1) timeout ∧
        v.env.2 = w.env.2 ++ [.reading (m.shown w.env.1)]) H := by
  refine m.always_now.bind ?_
  rintro _ v ⟨rfl, hv⟩
  exact .pure ⟨rfl, hv⟩

/-- A look at the deadline of a wait. -/
theorem always_expired {start timeout : Duration}
    {w : World ρ (σ × List Look)} {H : World ρ (σ × List Look) → Prop} :
    (m.accounted.expired (.ofStart start timeout)).Always w
      (fun late v =>
        (Duration.longest.nanos < start.nanos + timeout.nanos ∧
          late = false ∧ v.env.2 = w.env.2) ∨
        (start.nanos + timeout.nanos ≤ Duration.longest.nanos ∧
          ∃ t, late = decide (start.nanos + timeout.nanos ≤ t.nanos) ∧
            v.env.2 = w.env.2 ++ [.reading t])) H := by
  unfold expired
  split
  next hcomes =>
    refine m.always_now.bind fun t v hv => .pure (.inr ⟨?_, t, ?_, hv.2⟩)
    · have hsome : start.add? timeout ≠ none := Option.isSome_iff_ne_none.1 hcomes
      rw [ne_eq, Duration.add?_eq_none_iff] at hsome
      exact Nat.le_of_not_lt hsome
    · rw [Bool.eq_iff_iff, Deadline.reached_ofStart_iff, decide_eq_true_iff]
  next hnever =>
    have hnone : start.add? timeout = none := Option.not_isSome_iff_eq_none.1 hnever
    exact .pure (.inl ⟨Duration.add?_eq_none_iff.1 hnone, rfl, rfl⟩)

/-- The outcome of a check is entered in the account. -/
theorem always_accounted (condition : Run ρ σ Bool)
    (w : World ρ (σ × List Look)) :
    condition.accounted.Always w
      (fun met v => v.env.2 = w.env.2 ++ [.check met])
      fun v => v.env.2 = w.env.2 := by
  unfold Run.accounted
  constructor
  · intro n met v hr
    split at hr
    · cases hr
      rfl
    · exact nomatch hr
  · intro n e v hr
    split at hr
    · exact nomatch hr
    · cases hr
      rfl

/-- One round of a wait that is not over. -/
theorem always_round {start timeout : Duration} (condition : Run ρ σ Bool)
    {v : World ρ (σ × List Look)} (hpending : Ongoing start timeout v.env.2) :
    (do
      if ← condition.accounted then
        return .inr true
      if ← m.accounted.expired (.ofStart start timeout) then
        return .inr (← condition.accounted)
      return .inl () : Run ρ (σ × List Look) (Unit ⊕ Bool)).Always v
      (Always.Round (fun _ v => Ongoing start timeout v.env.2)
        fun met v => Concluded start timeout v.env.2 met)
      fun v => Stopped start timeout v.env.2 := by
  have hcheck := (always_accounted condition v).weaken fun v' hv' =>
    show Stopped start timeout v'.env.2 from hv' ▸ .waiting hpending
  refine hcheck.bind fun met v₁ hv₁ => ?_
  cases met with
  | true =>
    refine .pure ?_
    show Concluded start timeout v₁.env.2 true
    rw [hv₁]
    exact .met hpending
  | false =>
    refine m.always_expired.bind fun late v₂ hv₂ => ?_
    obtain ⟨hnever, rfl, hv₂⟩ | ⟨hcomes, t, rfl, hv₂⟩ := hv₂
    · refine .pure ?_
      show Ongoing start timeout v₂.env.2
      rw [hv₂, hv₁]
      exact .unread hpending hnever
    rw [hv₁, List.append_assoc] at hv₂
    by_cases hlate : start.nanos + timeout.nanos ≤ t.nanos
    · rw [decide_eq_true hlate]
      have hlast := (always_accounted condition v₂).weaken fun v' hv' =>
        show Stopped start timeout v'.env.2 from
          hv'.trans hv₂ ▸ .late hpending hlate
      refine hlast.bind fun met v₃ hv₃ => .pure ?_
      show Concluded start timeout v₃.env.2 met
      rw [hv₃, hv₂, List.append_assoc]
      exact .late hpending hlate met
    · rw [decide_eq_false hlate]
      refine .pure ?_
      show Ongoing start timeout v₂.env.2
      rw [hv₂]
      exact .early hpending hcomes (Nat.lt_of_not_le hlate)

/-- What a wait has looked at, however it ends. -/
theorem always_waitUntil (timeout : Duration) (condition : Run ρ σ Bool)
    (w : World ρ σ) :
    (m.accounted.waitUntil timeout condition.accounted).Always w.opened
      (fun met v => Concluded (m.shown w.env) timeout v.env.2 met)
      fun v => Stopped (m.shown w.env) timeout v.env.2 := by
  refine (m.always_deadlineAfter timeout).bind ?_
  rintro _ v ⟨rfl, hv⟩
  exact .loop (fun _ v => Ongoing (m.shown w.env) timeout v.env.2)
    (fun _ _ h => .waiting h) (fun _ _ h => m.always_round condition h)
    (hv ▸ .begun)

/-- The looks of a wait to an observer of patience `n`, oldest first. -/
def looks (timeout : Duration) (condition : Run ρ σ Bool) (n : Nat)
    (w : World ρ σ) : List Look :=
  ((m.accounted.waitUntil timeout condition.accounted).leaves n w.opened).env.2

/-- What a wait has looked at when it returns. -/
theorem concluded_of_run {timeout : Duration} {condition : Run ρ σ Bool}
    {n : Nat} {w w' : World ρ σ} {met : Bool}
    (h : m.waitUntil timeout condition n w = .ok met w') :
    Concluded (m.shown w.env) timeout (m.looks timeout condition n w) met := by
  have hsame : m.waitUntil timeout condition n w.opened.forget = .ok met w' := h
  obtain ⟨v, hrun, -⟩ := (m.forgets_waitUntil timeout condition).exists_ok hsame
  unfold looks
  rw [leaves_of_ok hrun]
  exact (m.always_waitUntil timeout condition w).ok n met v hrun

/-- What a wait has looked at when it stops without a result. -/
theorem stopped_of_run {timeout : Duration} {condition : Run ρ σ Bool}
    {n : Nat} {w w' : World ρ σ} {e : Halt}
    (h : m.waitUntil timeout condition n w = .error e w') :
    Stopped (m.shown w.env) timeout (m.looks timeout condition n w) := by
  have hsame : m.waitUntil timeout condition n w.opened.forget = .error e w' := h
  obtain ⟨v, hrun, -⟩ :=
    (m.forgets_waitUntil timeout condition).exists_error hsame
  unfold looks leaves
  rw [hrun]
  exact (m.always_waitUntil timeout condition w).error n e v hrun

end Machine

end UsbHost
