import UsbHost.Proofs.Host.Running

/-!
# Programs whose checks succeed

A program that stops without a result does so for one of two reasons: a check of
it has failed, or its observer has lost patience.  Only the first one is a fault
of the program.  `p.Faultless R` says that it never happens, on no bus and with
no clock, and that what `p` returns satisfies `R`; the second half is what the
checks of a later step rest on.

## Main results

* `Faultless.bind`, `Faultless.loop` — sequences and loops.
* `Faultless.panic_after`, `panic_before` — where a sequence panics.
* `Machine.faultless_delay`, `Machine.faultless_waitUntil` — waits check
  nothing.
* `HostM.Faultless.bind`, `HostM.Faultless.tryCatch` — operations on the device.
-/

namespace UsbHost

variable {ρ σ α β : Type}

namespace Run

/-- The observer sees a check of the program fail. -/
def Panics (p : Run ρ σ α) (n : Nat) (w : World ρ σ) : Prop :=
  ∃ e w', p n w = .error e w' ∧ e ≠ .unfinished

/-- The observer loses patience before the program ends. -/
def Unfinished (p : Run ρ σ α) (n : Nat) (w : World ρ σ) : Prop :=
  ∃ w', p n w = .error .unfinished w'

/-- No check of the program ever fails, and what it returns satisfies `R`. -/
structure Faultless (p : Run ρ σ α) (R : α → Prop) : Prop where
  returns : ∀ n w a w', p n w = .ok a w' → R a
  stops : ∀ n w e w', p n w = .error e w' → e = .unfinished

namespace Faultless

variable {p : Run ρ σ α} {R S : α → Prop}

theorem not_panics (h : p.Faultless R) (n : Nat) (w : World ρ σ) :
    ¬ p.Panics n w := by
  intro ⟨e, w', hrun, he⟩
  exact he (h.stops n w e w' hrun)

theorem mono (h : p.Faultless R) (hR : ∀ a, R a → S a) : p.Faultless S :=
  ⟨fun n w a w' hrun => hR a (h.returns n w a w' hrun), h.stops⟩

/-- What a faultless program yields, if it returns. -/
theorem yields (h : p.Faultless R) (w : World ρ σ) :
    p.Yields False w fun a _ => R a :=
  ⟨fun n a w' hrun => h.returns n w a w' hrun, False.elim⟩

/-- What is known of every result besides. -/
theorem and_yields (h : p.Faultless R)
    (hS : ∀ w, p.Yields False w fun a _ => S a) :
    p.Faultless fun a => S a ∧ R a :=
  ⟨fun n w a w' hrun =>
    ⟨(hS w).of_run hrun, h.returns n w a w' hrun⟩, h.stops⟩

/-- A program that returns to every observer. -/
theorem of_ok (h : ∀ n w, ∃ a w', p n w = .ok a w') :
    p.Faultless fun _ => True := by
  refine ⟨fun _ _ _ _ _ => trivial, fun n w e w' hrun => ?_⟩
  obtain ⟨a, v, hok⟩ := h n w
  rw [hok] at hrun
  exact nomatch hrun

theorem pure {a : α} (h : R a) : (Pure.pure a : Run ρ σ α).Faultless R := by
  constructor
  · intro n w b w' hrun
    cases hrun
    exact h
  · intro n w e w' hrun
    exact nomatch hrun

theorem bind {f : α → Run ρ σ β} {S : β → Prop} (hp : p.Faultless R)
    (hf : ∀ a, R a → (f a).Faultless S) : (p >>= f).Faultless S := by
  constructor
  · intro n w b w'' hrun
    obtain ⟨a, w', hfirst, hsecond⟩ := bind_eq_ok.1 hrun
    exact (hf a (hp.returns n w a w' hfirst)).returns n w' b w'' hsecond
  · intro n w e w'' hrun
    obtain hfirst | ⟨a, w', hfirst, hsecond⟩ := bind_eq_error.1 hrun
    · exact hp.stops n w e w'' hfirst
    · exact (hf a (hp.returns n w a w' hfirst)).stops n w' e w'' hsecond

/-- A step that is made only on a condition. -/
theorem ite {c : Prop} [Decidable c] {q : Run ρ σ α}
    (hp : c → p.Faultless R) (hq : ¬ c → q.Faultless R) :
    (if c then p else q).Faultless R := by
  split
  next hc => exact hp hc
  next hc => exact hq hc

theorem forM {xs : List β} {f : β → Run ρ σ Unit}
    (h : ∀ x, (f x).Faultless fun _ => True) :
    (xs.forM f).Faultless fun _ => True := by
  induction xs with
  | nil => exact .pure trivial
  | cons x rest ih => exact (h x).bind fun _ _ => ih

/-- What a round has to return: a value that satisfies the invariant again, or a
result. -/
def Round (I : β → Prop) (R : α → Prop) : β ⊕ α → Prop
  | .inl b => I b
  | .inr a => R a

/-- A loop whose rounds are faultless as long as its invariant holds. -/
theorem loop {body : β → Run ρ σ (β ⊕ α)} (I : β → Prop)
    (hbody : ∀ b, I b → (body b).Faultless (Round I R)) {b : β} (hb : I b) :
    (Run.loop body b).Faultless R := by
  have hrounds : ∀ j b, I b → (rounds j body b).Faultless R := by
    intro j
    induction j with
    | zero =>
      intro b _
      constructor
      · intro n w a w' hrun
        exact nomatch hrun
      · intro n w e w' hrun
        cases hrun
        rfl
    | succ j ih =>
      intro b hb
      rw [rounds_succ]
      refine (hbody b hb).bind fun r hr => ?_
      cases r with
      | inl b' => exact ih b' hr
      | inr a => exact .pure hr
  exact ⟨fun n => (hrounds n b hb).returns n, fun n => (hrounds n b hb).stops n⟩

/-! ### Checked steps -/

theorem slice {xs : List α} {start stop : Nat} (h : start ≤ stop)
    (h' : stop ≤ xs.length) :
    (Run.slice xs start stop : Run ρ σ (List α)).Faultless
      fun part => part.length = stop - start := by
  rw [slice_eq h h']
  refine .pure ?_
  rw [List.length_drop, List.length_take, Nat.min_eq_left h']

theorem narrow {width n : Nat} (h : (BitVec.ofNat width n).toNat = n) :
    (Run.narrow width n : Run ρ σ (BitVec width)).Faultless fun _ => True := by
  rw [narrow_eq h]
  exact .pure trivial

end Faultless

/-! ## Where a sequence panics -/

section Sequence

variable {p : Run ρ σ α} {f : α → Run ρ σ β} {n : Nat} {w w' : World ρ σ}
  {e : Halt}

/-- A sequence goes on where its first part returns. -/
theorem bind_of_ok {a : α} (h : p n w = .ok a w') :
    (p >>= f) n w = f a n w' := by
  change EStateM.bind (p n) (fun a => f a n) w = _
  simp only [EStateM.bind, h]

/-- A sequence whose first part is faultless panics in its second part. -/
theorem Faultless.panic_after {R : α → Prop} (hp : p.Faultless R)
    (h : (p >>= f) n w = .error e w') (he : e ≠ .unfinished) :
    ∃ a v, p n w = .ok a v ∧ f a n v = .error e w' := by
  obtain hfirst | ⟨a, v, hfirst, hsecond⟩ := bind_eq_error.1 h
  · exact absurd (hp.stops n w e w' hfirst) he
  · exact ⟨a, v, hfirst, hsecond⟩

/-- A sequence whose second part is faultless panics in its first part. -/
theorem panic_before {R : β → Prop} (hf : ∀ a, (f a).Faultless R)
    (h : (p >>= f) n w = .error e w') (he : e ≠ .unfinished) :
    p n w = .error e w' := by
  obtain hfirst | ⟨a, v, -, hsecond⟩ := bind_eq_error.1 h
  · exact hfirst
  · exact absurd ((hf a).stops n v e w' hsecond) he

end Sequence

end Run

/-! ## Time -/

open Run

namespace Machine

variable (m : Machine ρ σ)

theorem faultless_now : m.now.Faultless fun _ => True :=
  .of_ok fun n w => ⟨_, _, m.now_run n w⟩

theorem faultless_delay (d : Duration) :
    (m.delay d).Faultless fun _ => True := by
  unfold Machine.delay
  split
  · exact .of_ok fun _ _ => ⟨_, _, rfl⟩
  · refine m.faultless_now.bind fun start _ => ?_
    refine .loop (fun _ => True) (fun _ _ => ?_) trivial
    refine m.faultless_now.bind fun t _ => .pure ?_
    split <;> trivial

theorem faultless_deadlineAfter (timeout : Duration) :
    (m.deadlineAfter timeout).Faultless fun _ => True :=
  m.faultless_now.bind fun _ _ => .pure trivial

theorem faultless_expired (d : Deadline) :
    (m.expired d).Faultless fun _ => True :=
  .ite (fun _ => m.faultless_now.bind fun _ _ => .pure trivial)
    fun _ => .pure trivial

theorem faultless_timeLeft (d : Deadline) :
    (m.timeLeft d).Faultless fun _ => True :=
  .ite (fun _ => m.faultless_now.bind fun _ _ => .pure trivial)
    fun _ => .pure trivial

theorem faultless_waitUntil (timeout : Duration) {condition : Run ρ σ Bool}
    (hc : condition.Faultless fun _ => True) :
    (m.waitUntil timeout condition).Faultless fun _ => True := by
  refine (m.faultless_deadlineAfter timeout).bind fun deadline _ => ?_
  refine .loop (fun _ => True) (fun _ _ => ?_) trivial
  refine hc.bind fun met _ => .ite (fun _ => .pure trivial) fun _ => ?_
  refine (m.faultless_expired deadline).bind fun late _ => ?_
  exact .ite (fun _ => hc.bind fun _ _ => .pure trivial) fun _ => .pure trivial

end Machine

/-! ## Registers -/

namespace Core

variable (core : Core σ)

theorem faultless_load (r : Register) :
    (core.load r).Faultless fun _ => True :=
  .of_ok fun n w => ⟨_, _, core.load_run r n w⟩

theorem faultless_inspect (r : Register) (f : r.Content → α) :
    (do return f (← core.load r) : Run Register σ α).Faultless
      fun _ => True :=
  (core.faultless_load r).bind fun _ _ => .pure trivial

theorem faultless_store (r : Register) (content : r.Content) :
    (core.store r content).Faultless fun _ => True :=
  .of_ok fun n w => ⟨_, _, core.store_run r content n w⟩

theorem faultless_storeOnes (r : Register) :
    (core.storeOnes r).Faultless fun _ => True :=
  .of_ok fun n w => ⟨_, _, core.write_run r _ n w⟩

theorem faultless_barrier : core.barrier.Faultless fun _ => True :=
  .of_ok fun n w => ⟨_, _, core.barrier_run n w⟩

theorem faultless_acknowledgePort (changes : PortChanges) :
    (core.acknowledgePort changes).Faultless fun _ => True :=
  .of_ok fun n w => ⟨_, _, core.acknowledgePort_run changes n w⟩

theorem faultless_updatePort (change : PortControl) :
    (core.updatePort change).Faultless fun _ => True :=
  .of_ok fun n w => ⟨_, _, core.updatePort_run change n w⟩

end Core

/-! ## Operations on the device -/

/-- No check of the operation ever fails, and what it returns when it succeeds
satisfies `R`. -/
def HostM.Faultless (p : HostM σ α) (R : α → Prop) : Prop :=
  ∀ s, Run.Faultless (p.run.run s) fun r => ∀ a, r.1 = .ok a → R a

namespace HostM.Faultless

variable {p : HostM σ α} {R : α → Prop}

theorem throw (e : UsbError) :
    Faultless (MonadExcept.throw e : HostM σ α) R := by
  intro s
  rw [run_throw]
  exact .pure nofun

theorem modify (f : Link → Link) :
    Faultless (modify f : HostM σ Unit) fun _ => True := by
  intro s
  rw [run_modify]
  exact .pure fun _ _ => trivial

theorem get : Faultless (MonadState.get : HostM σ Link) fun _ => True := by
  intro s
  rw [run_get]
  exact .pure fun _ _ => trivial

theorem lift {p : Run Register σ α} (hp : p.Faultless R) :
    Faultless (liftM p : HostM σ α) R := by
  intro s
  rw [run_lift]
  refine hp.bind fun a ha => .pure fun b hb => ?_
  cases hb
  exact ha

theorem bind {f : α → HostM σ β} {S : β → Prop} (hp : Faultless p R)
    (hf : ∀ a, R a → Faultless (f a) S) : Faultless (p >>= f) S := by
  intro s
  rw [run_bind]
  refine (hp s).bind fun r hr => ?_
  obtain ⟨r, s'⟩ := r
  cases r with
  | ok a => exact hf a (hr a rfl) s'
  | error e => exact .pure nofun

theorem tryCatch {f : UsbError → HostM σ α} (hp : Faultless p R)
    (hf : ∀ e, Faultless (f e) R) :
    Faultless (MonadExcept.tryCatch p f) R := by
  intro s
  rw [run_tryCatch]
  refine (hp s).bind fun r hr => ?_
  obtain ⟨r, s'⟩ := r
  cases r with
  | ok a => exact .pure hr
  | error e => exact hf e s'

end HostM.Faultless

end UsbHost
