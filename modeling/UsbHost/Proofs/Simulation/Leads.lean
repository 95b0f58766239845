import UsbHost.Proofs.Host.Running
import UsbHost.Simulation.Controller

/-!
# Programs on the simulated core

On the simulated core a program is followed through the states of the
controller alone: `Leads T p k Q` forgets the clock and the log.  Whatever the
clock shows, a driver that starts on `k` and returns satisfies `Q` together
with the controller it leaves, and if `T` holds it returns.

## Main results

* `Leads.bind`, `Leads.loop` — sequences and loops.
* `leads_load`, `leads_store` — an access does what the controller says.
* `leads_delay`, `leads_expired` — time leaves the controller alone.
* `leads_waitUntil` — a wait for a condition that no check changes comes out as
  the condition does.
* `leads_run_bind`, `leads_run_lift` — operations on the attached device.
-/

namespace UsbHost.Simulation

variable {τ α β : Type} {T : Prop}

/-- A driver of the simulated core with a clock of its own. -/
def hostOn (clock : Clock τ) (settings : Settings) : Host (Controller × τ) :=
  { core := .ofParts Controller.bus clock, settings }

/-- Every return of `p` from the controller `k`, at any time, satisfies `Q`,
and if `T` holds it does return. -/
def Leads (T : Prop) (p : Run Register (Controller × τ) α) (k : Controller)
    (Q : α → Controller → Prop) : Prop :=
  ∀ w, w.env.1 = k → p.Yields T w fun a w' => Q a w'.env.1

namespace Leads

variable {p : Run Register (Controller × τ) α} {k : Controller}
  {Q R : α → Controller → Prop}

/-- What a returning run satisfies. -/
theorem of_run (h : Leads T p k Q) {n : Nat} {a : α}
    {w w' : World Register (Controller × τ)} (hw : w.env.1 = k)
    (hr : p n w = .ok a w') : Q a w'.env.1 :=
  (h w hw).of_run hr

theorem mono (h : Leads T p k Q) (hQ : ∀ a k', Q a k' → R a k') :
    Leads T p k R := fun w hw =>
  (h w hw).mono fun a w' => hQ a w'.env.1

theorem weaken {T' : Prop} (h : Leads T p k Q) (ht : T' → T) :
    Leads T' p k Q := fun w hw =>
  (h w hw).weaken ht

theorem pure {a : α} (h : Q a k) :
    Leads T (Pure.pure a : Run Register (Controller × τ) α) k Q :=
  fun _ hw => .pure (hw ▸ h)

/-- A sequence leads where its second part leads after the first. -/
theorem bind {f : α → Run Register (Controller × τ) β}
    {S : β → Controller → Prop} (h : Leads T p k Q)
    (hf : ∀ a k', Q a k' → Leads T (f a) k' S) : Leads T (p >>= f) k S :=
  fun w hw => (h w hw).bind fun a w' hQ => hf a w'.env.1 hQ w' rfl

/-- What every step of a list keeps, the whole list keeps. -/
theorem forM {xs : List β} {f : β → Run Register (Controller × τ) Unit}
    {I : Controller → Prop} (h : ∀ x k, I k → Leads T (f x) k fun _ => I)
    (hI : I k) : Leads T (xs.forM f) k fun _ => I := by
  induction xs generalizing k with
  | nil => exact .pure hI
  | cons x rest ih =>
    exact (h x k hI).bind fun _ _ hI' => ih hI'

/-- What a round of a loop has to achieve. -/
def Round (T : Prop) (I : β → Controller → Prop) (μ : β → Controller → Nat)
    (Q : α → Controller → Prop) (size : Nat) : β ⊕ α → Controller → Prop
  | .inl b, k => I b k ∧ (T → μ b k < size)
  | .inr a, k => Q a k

/-- A loop leads to what its invariant implies at its end. -/
theorem loop {body : β → Run Register (Controller × τ) (β ⊕ α)}
    (I : β → Controller → Prop) (μ : β → Controller → Nat)
    (hbody : ∀ b k, I b k → Leads T (body b) k (Round T I μ Q (μ b k)))
    {b : β} (hI : I b k) : Leads T (Run.loop body b) k Q := fun w hw => by
  refine Run.Yields.loop (fun b w => I b w.env.1) (fun b w => μ b w.env.1)
    (fun b v hv => ?_) (hw ▸ hI)
  refine (hbody b v.env.1 hv v rfl).mono fun r v' hr => ?_
  cases r with
  | inl b' => exact hr
  | inr a => exact hr

end Leads

/-- Part of a list is returned if the list has it. -/
theorem leads_slice {k : Controller} {xs : List α} {start stop : Nat}
    {Q : List α → Controller → Prop}
    (hT : T → start ≤ stop ∧ stop ≤ xs.length)
    (h : start ≤ stop ∧ stop ≤ xs.length → Q ((xs.take stop).drop start) k) :
    Leads T (Run.slice xs start stop : Run Register (Controller × τ) (List α)) k
      Q :=
  fun _ hw => Run.yields_check hT fun hc => hw ▸ h hc

/-- A sum is returned if it fits. -/
theorem leads_add {k : Controller} {width : Nat} {a b : BitVec width}
    {Q : BitVec width → Controller → Prop}
    (hT : T → (a + b).toNat = a.toNat + b.toNat) (h : Q (a + b) k) :
    Leads T (Run.add a b : Run Register (Controller × τ) (BitVec width)) k Q :=
  fun _ hw => Run.yields_check hT fun _ => hw ▸ h

/-! ## Accesses -/

section Access

variable {clock : Clock τ} {settings : Settings} {k : Controller}

theorem leads_load {r : Register} {Q : r.Content → Controller → Prop}
    (h : Q (r.decode (k.read r).1) (k.read r).2) :
    Leads T ((hostOn clock settings).core.load r) k Q := fun _ hw =>
  .of_eq (fun _ => rfl) (by subst hw; exact h)

/-- A load of `v` followed by what is done with its content. -/
theorem leads_load_bind {r : Register} {v : Word} {k' : Controller}
    {f : r.Content → Run Register (Controller × τ) α}
    {Q : α → Controller → Prop} (hr : k.read r = (v, k'))
    (h : Leads T (f (r.decode v)) k' Q) :
    Leads T ((hostOn clock settings).core.load r >>= f) k Q := by
  refine (leads_load (Q := fun c k'' => c = r.decode v ∧ k'' = k') ?_).bind ?_
  · simp [hr]
  · rintro _ _ ⟨rfl, rfl⟩
    exact h

theorem leads_store {r : Register} {content : r.Content}
    {Q : Unit → Controller → Prop} (h : Q () (k.write r (r.encode content))) :
    Leads T ((hostOn clock settings).core.store r content) k Q := fun _ hw =>
  .of_eq (fun _ => rfl) (by subst hw; exact h)

/-- A store followed by the rest of the program. -/
theorem leads_store_bind {r : Register} {content : r.Content}
    {k' : Controller} {f : Unit → Run Register (Controller × τ) α}
    {Q : α → Controller → Prop} (hw : k.write r (r.encode content) = k')
    (h : Leads T (f ()) k' Q) :
    Leads T ((hostOn clock settings).core.store r content >>= f) k Q := by
  refine (leads_store (Q := fun _ k'' => k'' = k') hw).bind ?_
  rintro _ _ rfl
  exact h

theorem leads_storeOnes {r : Register} {Q : Unit → Controller → Prop}
    (h : Q () (k.write r (BitVec.allOnes 32))) :
    Leads T ((hostOn clock settings).core.storeOnes r) k Q := fun _ hw =>
  .of_eq (fun _ => rfl) (by subst hw; exact h)

theorem leads_storeOnes_bind {r : Register} {k' : Controller}
    {f : Unit → Run Register (Controller × τ) α} {Q : α → Controller → Prop}
    (hw : k.write r (BitVec.allOnes 32) = k') (h : Leads T (f ()) k' Q) :
    Leads T ((hostOn clock settings).core.storeOnes r >>= f) k Q := by
  refine (leads_storeOnes (Q := fun _ k'' => k'' = k') hw).bind ?_
  rintro _ _ rfl
  exact h

theorem leads_barrier {Q : Unit → Controller → Prop} (h : Q () k) :
    Leads T (hostOn clock settings).core.barrier k Q := fun _ hw =>
  .of_eq (fun _ => rfl) (by subst hw; exact h)

theorem leads_updatePort {change : PortControl} {Q : Unit → Controller → Prop}
    (h : Q () (k.write .port (change.apply k.port.register.quiet).raw)) :
    Leads T ((hostOn clock settings).core.updatePort change) k Q := fun _ hw =>
  .of_eq (fun _ => rfl) (by subst hw; exact h)

theorem leads_acknowledgePort {changes : PortChanges}
    {Q : Unit → Controller → Prop}
    (h : Q () (k.write .port (k.port.register.quiet.raw ||| changes.bits))) :
    Leads T ((hostOn clock settings).core.acknowledgePort changes) k Q :=
  fun _ hw => .of_eq (fun _ => rfl) (by subst hw; exact h)

/-! ## Time -/

theorem leads_now {Q : Duration → Controller → Prop} (h : ∀ t, Q t k) :
    Leads T (hostOn clock settings).core.now k Q := fun _ hw =>
  .of_eq (fun _ => rfl) (by subst hw; exact h _)

theorem leads_delay {d : Duration} {Q : Unit → Controller → Prop}
    (hT : T → (hostOn clock settings).core.DelaysReturn) (h : Q () k) :
    Leads T ((hostOn clock settings).core.delay d) k Q := fun w hw => by
  refine ((hostOn clock settings).core.yields_delay
    (P := fun w => w.env.1 = k) hT hw ?_ ?_).mono fun _ w' hw' => hw' ▸ h
  · intro v n t v' hv hr
    cases hr
    exact hv
  · intro v skip hv hs
    simp only [hostOn, Machine.ofParts, Option.map_eq_some_iff] at hs
    obtain ⟨f, -, rfl⟩ := hs
    exact hv

theorem leads_deadlineAfter {d : Duration} {Q : Deadline → Controller → Prop}
    (h : ∀ deadline, Q deadline k) :
    Leads T ((hostOn clock settings).core.deadlineAfter d) k Q :=
  (leads_now (Q := fun _ k' => k' = k) fun _ => rfl).bind
    fun _ _ hk => .pure (hk ▸ h _)

theorem leads_expired {d : Deadline} {Q : Bool → Controller → Prop}
    (h : ∀ b, Q b k) :
    Leads T ((hostOn clock settings).core.expired d) k Q := by
  unfold Machine.expired
  split
  · exact (leads_now (Q := fun _ k' => k' = k) fun _ => rfl).bind
      fun _ _ hk => .pure (hk ▸ h _)
  · exact .pure (h _)

theorem leads_timeLeft {d : Deadline} {Q : Duration → Controller → Prop}
    (h : ∀ t, Q t k) :
    Leads T ((hostOn clock settings).core.timeLeft d) k Q := by
  unfold Machine.timeLeft
  split
  · exact (leads_now (Q := fun _ k' => k' = k) fun _ => rfl).bind
      fun _ _ hk => .pure (hk ▸ h _)
  · exact .pure (h _)

/-- A wait for a condition that no check changes comes out as the condition
does.  It need not end where the condition fails. -/
theorem leads_waitUntil {timeout : Duration} {c : Bool}
    {condition : Run Register (Controller × τ) Bool}
    {Q : Bool → Controller → Prop}
    (hc : Leads T condition k fun b k' => b = c ∧ k' = k)
    (hT : T → c = true) (h : Q c k) :
    Leads T ((hostOn clock settings).core.waitUntil timeout condition) k Q := by
  refine (leads_deadlineAfter (Q := fun _ k' => k' = k) fun _ => rfl).bind
    fun deadline k' hk => ?_
  subst hk
  refine .loop (fun _ v => v = k') (fun _ _ => 0) ?_ rfl
  rintro _ v rfl
  refine hc.bind ?_
  rintro b v ⟨rfl, rfl⟩
  cases b with
  | true => exact .pure h
  | false =>
    refine (leads_expired (Q := fun _ u => u = v) fun _ => rfl).bind ?_
    rintro e u rfl
    cases e with
    | true =>
      refine hc.bind ?_
      rintro b v ⟨rfl, rfl⟩
      exact .pure h
    | false => exact .pure ⟨rfl, fun ht => absurd (hT ht) (by decide)⟩

end Access

/-! ## Operations on the attached device -/

section Operation

variable {k : Controller} {s : Link} {Q : Except UsbError β × Link →
  Controller → Prop}

/-- A sequence of operations ends with the first failure. -/
theorem leads_run_bind {p : HostM (Controller × τ) α}
    {f : α → HostM (Controller × τ) β}
    {R : Except UsbError α × Link → Controller → Prop}
    (h : Leads T (p.run.run s) k R)
    (hok : ∀ a s' k', R (.ok a, s') k' → Leads T ((f a).run.run s') k' Q)
    (herror : ∀ e s' k', R (.error e, s') k' → Q (.error e, s') k') :
    Leads T ((p >>= f).run.run s) k Q := by
  rw [HostM.run_bind]
  refine h.bind fun r k' hr => ?_
  obtain ⟨r, s'⟩ := r
  cases r with
  | ok a => exact hok a s' k' hr
  | error e => exact .pure (herror e s' k' hr)

/-- An operation that cannot fail, and the one after it. -/
theorem leads_run_ok {p : HostM (Controller × τ) α}
    {f : α → HostM (Controller × τ) β} {a : α} {s' : Link}
    {R : Controller → Prop}
    (h : Leads T (p.run.run s) k fun r k' => r = (.ok a, s') ∧ R k')
    (hf : ∀ k', R k' → Leads T ((f a).run.run s') k' Q) :
    Leads T ((p >>= f).run.run s) k Q := by
  refine leads_run_bind h ?_ ?_
  · rintro _ _ k' ⟨hr, hR⟩
    cases hr
    exact hf k' hR
  · rintro e s₁ k' ⟨hr, -⟩
    exact nomatch hr

/-- A program that knows nothing of the device, and the operation after it. -/
theorem leads_run_lift {p : Run Register (Controller × τ) α}
    {f : α → HostM (Controller × τ) β} {R : α → Controller → Prop}
    (h : Leads T p k R)
    (hf : ∀ a k', R a k' → Leads T ((f a).run.run s) k' Q) :
    Leads T ((liftM p >>= f).run.run s) k Q := by
  rw [HostM.run_bind, HostM.run_lift]
  refine (h.bind (S := fun r k' => ∃ a, r = (.ok a, s) ∧ R a k') ?_).bind ?_
  · exact fun a k' hR => .pure ⟨a, rfl, hR⟩
  · rintro _ k' ⟨a, rfl, hR⟩
    exact hf a k' hR

theorem leads_run_modify {g : Link → Link}
    {f : Unit → HostM (Controller × τ) β}
    (hf : Leads T ((f ()).run.run (g s)) k Q) :
    Leads T ((modify g >>= f).run.run s) k Q := by
  rw [HostM.run_bind, HostM.run_modify]
  exact (Leads.pure (Q := fun r k' => r = (.ok (), g s) ∧ k = k')
    ⟨rfl, rfl⟩).bind (by rintro _ _ ⟨rfl, rfl⟩; exact hf)

theorem leads_run_get {f : Link → HostM (Controller × τ) β}
    (hf : Leads T ((f s).run.run s) k Q) :
    Leads T ((get >>= f).run.run s) k Q := by
  rw [HostM.run_bind, HostM.run_get]
  exact (Leads.pure (Q := fun r k' => r = (.ok s, s) ∧ k = k')
    ⟨rfl, rfl⟩).bind (by rintro _ _ ⟨rfl, rfl⟩; exact hf)

theorem leads_run_throw {e : UsbError} (h : Q (.error e, s) k) :
    Leads T ((throw e : HostM (Controller × τ) β).run.run s) k Q :=
  .pure h

theorem leads_run_pure {b : β} (h : Q (.ok b, s) k) :
    Leads T ((pure b : HostM (Controller × τ) β).run.run s) k Q :=
  .pure h

end Operation

end UsbHost.Simulation
