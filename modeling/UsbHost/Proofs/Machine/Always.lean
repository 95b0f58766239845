import UsbHost.Proofs.Machine.Yields

/-!
# Whatever becomes of a program

A program ends with a result, or it stops without one: a check fails, or a loop
outlasts its observer.  What has happened on the bus by then has happened in
either case, so a law about every access has to hold at both kinds of ends.
`p.Always w Q H` says that what `p` returns from `w` satisfies `Q`, and that `H`
holds of the world wherever it stops.

## Main results

* `Always.bind`, `Always.loop` — sequences and loops.
* `Maintains.bind`, `Maintains.loop` — a property that every step keeps if it
  returns is kept by the whole.
* `Preserves.bind`, `Preserves.loop` — a property that every step keeps is kept
  by the whole, however it ends.
* `Timeless.waitUntil`, `Timeless.delay` — what the passing of time does not
  touch, no wait touches.
-/

namespace UsbHost

variable {ρ σ α β ε : Type}

/-- Results can be compared.  The priority keeps this ahead of the instance that
some libraries bring along. -/
instance (priority := 1100) decidableEqExcept [DecidableEq ε]
    [DecidableEq α] : DecidableEq (Except ε α)
  | .ok a, .ok b => decidable_of_iff (a = b) ⟨congrArg Except.ok, Except.ok.inj⟩
  | .error a, .error b =>
    decidable_of_iff (a = b) ⟨congrArg Except.error, Except.error.inj⟩
  | .ok _, .error _ => isFalse nofun
  | .error _, .ok _ => isFalse nofun

namespace Run

/-- A sequence stops where its first part does, or where its second part does
after the first has returned. -/
theorem bind_eq_error {p : Run ρ σ α} {f : α → Run ρ σ β} {n : Nat}
    {w w'' : World ρ σ} {e : Halt} :
    (p >>= f) n w = .error e w'' ↔
      p n w = .error e w'' ∨
        ∃ a w', p n w = .ok a w' ∧ f a n w' = .error e w'' := by
  change EStateM.bind (p n) (fun a => f a n) w = _ ↔ _
  simp only [EStateM.bind]
  cases hp : p n w with
  | ok a w' =>
    constructor
    · intro h
      exact .inr ⟨a, w', rfl, h⟩
    · intro h
      obtain h | ⟨b, v, h, hb⟩ := h
      · exact nomatch h
      · cases h
        exact hb
  | error e' w' => simp

/-- The world in which a program ends, with or without a result. -/
def leaves (p : Run ρ σ α) (n : Nat) (w : World ρ σ) : World ρ σ :=
  match p n w with
  | .ok _ w' => w'
  | .error _ w' => w'

theorem leaves_of_ok {p : Run ρ σ α} {n : Nat} {w w' : World ρ σ} {a : α}
    (h : p n w = .ok a w') : p.leaves n w = w' := by
  rw [leaves, h]

/-- What leaves the world as it is does not show in the world that a sequence
leaves. -/
theorem leaves_bind {p : Run ρ σ α} {f : α → Run ρ σ β} {n : Nat}
    (hf : ∀ a w, (f a).leaves n w = w) (w : World ρ σ) :
    (p >>= f).leaves n w = p.leaves n w := by
  unfold leaves
  change (match EStateM.bind (p n) (fun a => f a n) w with
    | .ok _ w' => w'
    | .error _ w' => w') = _
  simp only [EStateM.bind]
  cases hp : p n w with
  | ok a w' => exact hf a w'
  | error e w' => rfl

/-- Whether a program returns, with something that passes a test. -/
def returns (p : Run ρ σ α) (n : Nat) (w : World ρ σ)
    (test : α → World ρ σ → Bool) : Bool :=
  match p n w with
  | .ok a w' => test a w'
  | .error _ _ => false

/-- What a test says of a run that is known. -/
theorem returns_of_ok {p : Run ρ σ α} {n : Nat} {w w' : World ρ σ} {a : α}
    (h : p n w = .ok a w') (test : α → World ρ σ → Bool) :
    p.returns n w test = test a w' := by
  rw [returns, h]

theorem exists_of_returns {p : Run ρ σ α} {n : Nat} {w : World ρ σ}
    {test : α → World ρ σ → Bool} (h : p.returns n w test = true) :
    ∃ a w', p n w = .ok a w' ∧ test a w' = true := by
  unfold returns at h
  cases hp : p n w with
  | ok a w' =>
    rw [hp] at h
    exact ⟨a, w', rfl, h⟩
  | error e w' =>
    rw [hp] at h
    exact absurd h Bool.false_ne_true

/-- What `p` returns from `w` satisfies `Q`, and where it stops without a
result, `H` holds. -/
structure Always (p : Run ρ σ α) (w : World ρ σ) (Q : α → World ρ σ → Prop)
    (H : World ρ σ → Prop) : Prop where
  ok : ∀ n a w', p n w = .ok a w' → Q a w'
  error : ∀ n e w', p n w = .error e w' → H w'

namespace Always

variable {p : Run ρ σ α} {w : World ρ σ} {Q R : α → World ρ σ → Prop}
  {H : World ρ σ → Prop}

theorem mono (h : p.Always w Q H) (hQ : ∀ a w', Q a w' → R a w') :
    p.Always w R H :=
  ⟨fun n a w' hr => hQ a w' (h.ok n a w' hr), h.error⟩

theorem weaken {H' : World ρ σ → Prop} (h : p.Always w Q H)
    (hH : ∀ w', H w' → H' w') : p.Always w Q H' :=
  ⟨h.ok, fun n e w' hr => hH w' (h.error n e w' hr)⟩

/-- What returns as `Always` says yields it, if it returns. -/
theorem yields (h : p.Always w Q H) : p.Yields False w Q :=
  ⟨h.ok, False.elim⟩

theorem and {S : α → World ρ σ → Prop} {H' : World ρ σ → Prop}
    (h : p.Always w Q H) (h' : p.Always w S H') :
    p.Always w (fun a w' => Q a w' ∧ S a w') fun w' => H w' ∧ H' w' :=
  ⟨fun n a w' hr => ⟨h.ok n a w' hr, h'.ok n a w' hr⟩,
    fun n e w' hr => ⟨h.error n e w' hr, h'.error n e w' hr⟩⟩

/-- Whatever becomes of a program, a run of it has come to that. -/
theorem ran (p : Run ρ σ α) (w : World ρ σ) :
    p.Always w (fun a w' => ∃ n, p n w = .ok a w')
      fun w' => ∃ n e, p n w = .error e w' :=
  ⟨fun n _ _ hr => ⟨n, hr⟩, fun n e _ hr => ⟨n, e, hr⟩⟩

/-- What a program yields holds of its results, wherever else it stops. -/
theorem of_yields {T : Prop} (h : p.Yields T w Q) :
    p.Always w Q fun _ => True :=
  ⟨h.1, fun _ _ _ _ => trivial⟩

/-- What a program yields, and whatever else its results satisfy. -/
theorem and_yields {T : Prop} (h : p.Always w R H) (hQ : p.Yields T w Q) :
    p.Yields T w fun a w' => Q a w' ∧ R a w' :=
  ⟨fun n a w' hr => ⟨hQ.1 n a w' hr, h.ok n a w' hr⟩, hQ.2⟩

/-- What holds at every end holds of the world that a program leaves. -/
theorem leaves (h : p.Always w (fun _ => H) H) (n : Nat) :
    H (p.leaves n w) := by
  unfold Run.leaves
  cases hp : p n w with
  | ok a w' => exact h.ok n a w' hp
  | error e w' => exact h.error n e w' hp

theorem pure {a : α} (h : Q a w) :
    (Pure.pure a : Run ρ σ α).Always w Q H := by
  constructor
  · intro n b w' hr
    cases hr
    exact h
  · intro n e w' hr
    exact nomatch hr

theorem throw {e : Halt} (h : H w) :
    (MonadExcept.throw e : Run ρ σ α).Always w Q H := by
  constructor
  · intro n a w' hr
    exact nomatch hr
  · intro n e' w' hr
    cases hr
    exact h

/-- A program with one outcome. -/
theorem of_eq {a : α} {w' : World ρ σ} (hp : ∀ n, p n w = .ok a w')
    (hQ : Q a w') : p.Always w Q H := by
  constructor
  · intro n b v hr
    rw [hp n] at hr
    cases hr
    exact hQ
  · intro n e v hr
    rw [hp n] at hr
    exact nomatch hr

/-- A sequence ends as its second part does after the first, or where the first
one stops. -/
theorem bind {f : α → Run ρ σ β} {S : β → World ρ σ → Prop}
    (h : p.Always w Q H) (hf : ∀ a w', Q a w' → (f a).Always w' S H) :
    (p >>= f).Always w S H := by
  constructor
  · intro n b w'' hr
    obtain ⟨a, w', hp, hb⟩ := bind_eq_ok.1 hr
    exact (hf a w' (h.ok n a w' hp)).ok n b w'' hb
  · intro n e w'' hr
    obtain hp | ⟨a, w', hp, hb⟩ := bind_eq_error.1 hr
    · exact h.error n e w'' hp
    · exact (hf a w' (h.ok n a w' hp)).error n e w'' hb

/-- What a round has to achieve: the invariant again, or a result. -/
def Round (I : β → World ρ σ → Prop) (Q : α → World ρ σ → Prop) :
    β ⊕ α → World ρ σ → Prop
  | .inl b, w => I b w
  | .inr a, w => Q a w

/-- A loop keeps its invariant until it ends.  An observer can lose patience
before any round, so the invariant has to imply what holds at a stop. -/
theorem loop {body : β → Run ρ σ (β ⊕ α)} (I : β → World ρ σ → Prop)
    (hI : ∀ b w, I b w → H w)
    (hbody : ∀ b w, I b w → (body b).Always w (Round I Q) H) {b : β}
    (hb : I b w) : (Run.loop body b).Always w Q H := by
  have hrounds : ∀ j b w, I b w → (rounds j body b).Always w Q H := by
    intro j
    induction j with
    | zero =>
      intro b w hb
      constructor
      · intro n a w' hr
        exact nomatch hr
      · intro n e w' hr
        cases hr
        exact hI b w hb
    | succ j ih =>
      intro b w hb
      rw [rounds_succ]
      refine (hbody b w hb).bind fun r w' hround => ?_
      cases r with
      | inl b' => exact ih b' w' hround
      | inr a => exact .pure hround
  exact ⟨fun n => (hrounds n b w hb).ok n, fun n => (hrounds n b w hb).error n⟩

end Always

/-! ## What a program maintains -/

/-- Started where `P` holds, the program returns where `P` holds, or stops where
`H` holds. -/
def Maintains (P H : World ρ σ → Prop) (p : Run ρ σ α) : Prop :=
  ∀ w, P w → p.Always w (fun _ => P) H

namespace Maintains

variable {P H : World ρ σ → Prop} {p : Run ρ σ α}

theorem pure (a : α) : Maintains P H (Pure.pure a : Run ρ σ α) :=
  fun _ hw => .pure hw

theorem throw (hstop : ∀ w, P w → H w) (e : Halt) :
    Maintains P H (MonadExcept.throw e : Run ρ σ α) :=
  fun w hw => .throw (hstop w hw)

theorem bind {f : α → Run ρ σ β} (hp : Maintains P H p)
    (hf : ∀ a, Maintains P H (f a)) : Maintains P H (p >>= f) :=
  fun w hw => (hp w hw).bind fun a w' hw' => hf a w' hw'

theorem loop (hstop : ∀ w, P w → H w) {body : β → Run ρ σ (β ⊕ α)}
    (hbody : ∀ b, Maintains P H (body b)) (b : β) :
    Maintains P H (Run.loop body b) := by
  intro w hw
  refine .loop (fun _ => P) (fun _ w h => hstop w h) (fun b w hw => ?_) hw
  refine (hbody b w hw).mono fun r w' hw' => ?_
  cases r with
  | inl b' => exact hw'
  | inr a => exact hw'

/-- A step that is made only on a condition. -/
theorem ite {c : Prop} [Decidable c] {q : Run ρ σ α} (hp : c → Maintains P H p)
    (hq : ¬ c → Maintains P H q) : Maintains P H (if c then p else q) := by
  split
  next hc => exact hp hc
  next hc => exact hq hc

/-- What each step of a list maintains, the whole list maintains. -/
theorem forM {xs : List β} {f : β → Run ρ σ Unit}
    (h : ∀ x, Maintains P H (f x)) : Maintains P H (xs.forM f) := by
  induction xs with
  | nil => exact .pure ()
  | cons x rest ih => exact (h x).bind fun _ => ih

theorem slice (hstop : ∀ w, P w → H w) (xs : List β) (start stop : Nat) :
    Maintains P H (Run.slice xs start stop : Run ρ σ (List β)) :=
  .ite (fun _ => .pure _) fun _ => .throw hstop _

end Maintains

/-! ## What a program preserves -/

/-- Started where `P` holds, the program ends where `P` holds, with or without a
result. -/
def Preserves (P : World ρ σ → Prop) (p : Run ρ σ α) : Prop :=
  ∀ w, P w → p.Always w (fun _ => P) P

namespace Preserves

variable {P : World ρ σ → Prop} {p : Run ρ σ α}

/-- What is preserved is maintained, if it says enough about stops. -/
theorem maintains {H : World ρ σ → Prop} (h : Preserves P p)
    (hstop : ∀ w, P w → H w) : Maintains P H p :=
  fun w hw => (h w hw).weaken hstop

theorem pure (a : α) : Preserves P (Pure.pure a : Run ρ σ α) :=
  Maintains.pure a

theorem throw (e : Halt) :
    Preserves P (MonadExcept.throw e : Run ρ σ α) :=
  Maintains.throw (fun _ hw => hw) e

theorem bind {f : α → Run ρ σ β} (hp : Preserves P p)
    (hf : ∀ a, Preserves P (f a)) : Preserves P (p >>= f) :=
  Maintains.bind hp hf

theorem loop {body : β → Run ρ σ (β ⊕ α)}
    (hbody : ∀ b, Preserves P (body b)) (b : β) :
    Preserves P (Run.loop body b) :=
  Maintains.loop (fun _ hw => hw) hbody b

/-- A step that is made only on a condition. -/
theorem ite {c : Prop} [Decidable c] {q : Run ρ σ α} (hp : c → Preserves P p)
    (hq : ¬ c → Preserves P q) : Preserves P (if c then p else q) :=
  Maintains.ite hp hq

/-- What each step of a list preserves, the whole list preserves. -/
theorem forM {xs : List β} {f : β → Run ρ σ Unit}
    (h : ∀ x, Preserves P (f x)) : Preserves P (xs.forM f) :=
  Maintains.forM h

theorem slice (xs : List β) (start stop : Nat) :
    Preserves P (Run.slice xs start stop : Run ρ σ (List β)) :=
  Maintains.slice (fun _ hw => hw) xs start stop

theorem narrow (width n : Nat) :
    Preserves P (Run.narrow width n : Run ρ σ (BitVec width)) :=
  .ite (fun _ => .pure _) fun _ => .throw _

theorem add {width : Nat} (a b : BitVec width) :
    Preserves P (Run.add a b : Run ρ σ (BitVec width)) :=
  .ite (fun _ => .pure _) fun _ => .throw _

/-- A program that preserves `P`, and what follows it. -/
theorem before {f : α → Run ρ σ β} {S : β → World ρ σ → Prop}
    {H : World ρ σ → Prop} {w : World ρ σ} (hp : Preserves P p)
    (hstop : ∀ w, P w → H w) (hw : P w)
    (hf : ∀ a w', P w' → (f a).Always w' S H) : (p >>= f).Always w S H :=
  ((hp w hw).weaken hstop).bind hf

/-- What a program preserves holds of the world that it leaves. -/
theorem leaves (h : Preserves P p) {w : World ρ σ} (hw : P w) (n : Nat) :
    P (p.leaves n w) :=
  (h w hw).leaves n

end Preserves

end Run

/-! ## Time -/

open Run

/-- Readings of the clock and skipped spans leave `P` alone. -/
structure Machine.Timeless (m : Machine ρ σ) (P : World ρ σ → Prop) :
    Prop where
  now : Preserves P m.now
  skip : ∀ f d w, m.clock.skip = some f → P w →
    P ⟨f d w.env, .pause d :: w.log⟩

namespace Machine.Timeless

variable {m : Machine ρ σ} {P : World ρ σ → Prop}

theorem delay (h : m.Timeless P) (d : Duration) : Preserves P (m.delay d) := by
  intro w hw
  cases hs : m.clock.skip with
  | some f => exact .of_eq (m.delay_of_skip hs d · w) (h.skip f d w hs hw)
  | none =>
    have hwait : Preserves P (m.busyWait d) := by
      refine h.now.bind fun start => .loop (fun _ => ?_) ()
      exact h.now.bind fun t => .pure _
    simpa only [Machine.delay, hs] using hwait w hw

theorem deadlineAfter (h : m.Timeless P) (d : Duration) :
    Preserves P (m.deadlineAfter d) :=
  h.now.bind fun _ => .pure _

theorem expired (h : m.Timeless P) (d : Deadline) :
    Preserves P (m.expired d) :=
  .ite (fun _ => h.now.bind fun _ => .pure _) fun _ => .pure _

theorem timeLeft (h : m.Timeless P) (d : Deadline) :
    Preserves P (m.timeLeft d) :=
  .ite (fun _ => h.now.bind fun _ => .pure _) fun _ => .pure _

theorem waitUntil (h : m.Timeless P) (timeout : Duration)
    {condition : Run ρ σ Bool} (hc : Preserves P condition) :
    Preserves P (m.waitUntil timeout condition) := by
  refine (h.deadlineAfter timeout).bind fun deadline => .loop (fun _ => ?_) ()
  refine hc.bind fun met => .ite (fun _ => .pure _) fun _ => ?_
  refine (h.expired deadline).bind fun late => ?_
  exact .ite (fun _ => hc.bind fun _ => .pure _) fun _ => .pure _

end Machine.Timeless

end UsbHost
