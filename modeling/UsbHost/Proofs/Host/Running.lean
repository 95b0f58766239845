import UsbHost.Host.Basic
import UsbHost.Proofs.Machine.Always

/-!
# Running operations on the device

An operation on the attached device, run from a state of what is known about
it, is a program that returns a result and the state after it.  Each way of
composing operations is a way of composing these programs.

## Main results

* `run_bind`, `run_tryCatch` — sequences and handlers.
* `run_lift`, `run_modify`, `run_throw` — the steps that operations are made of.
* `Keeps.bind` and its siblings — what no step changes, no operation changes.
* `Ends.bind`, `Ends.modify_bind` — an operation that turns one property of the
  state into another.
* `Achieves.bind` and its siblings — what an operation has made sure of when it
  succeeds.
* `always_bind`, `always_lift` — sequences, whatever becomes of them.
-/

namespace UsbHost.HostM

variable {σ α β : Type}

/-! ## Equations -/

theorem run_pure (a : α) (s : Link) :
    (pure a : HostM σ α).run.run s = pure (.ok a, s) := rfl

theorem run_get (s : Link) :
    (get : HostM σ Link).run.run s = pure (.ok s, s) := rfl

theorem run_modify (f : Link → Link) (s : Link) :
    (modify f : HostM σ Unit).run.run s = pure (.ok (), f s) := rfl

theorem run_throw (e : UsbError) (s : Link) :
    (throw e : HostM σ α).run.run s = pure (.error e, s) := rfl

/-- A program that knows nothing of the device leaves its state alone. -/
theorem run_lift (p : Run Register σ α) (s : Link) :
    (liftM p : HostM σ α).run.run s = p >>= fun a => pure (.ok a, s) := by
  funext n w
  show EStateM.bind (EStateM.bind (p n) _) _ w = EStateM.bind (p n) _ w
  simp only [EStateM.bind]
  cases p n w <;> rfl

/-- A failure ends a sequence, with the state it has come to. -/
theorem run_bind (p : HostM σ α) (f : α → HostM σ β) (s : Link) :
    (p >>= f).run.run s = p.run.run s >>= fun r =>
      match r.1 with
      | .ok a => (f a).run.run r.2
      | .error e => pure (.error e, r.2) := by
  show p.run.run s >>= _ = _
  congr 1
  funext r
  obtain ⟨r, s'⟩ := r
  cases r <;> rfl

/-- A program that knows nothing of the device, and the operation after it. -/
theorem run_lift_bind (p : Run Register σ α) (f : α → HostM σ β) (s : Link) :
    (liftM p >>= f).run.run s = p >>= fun a => (f a).run.run s := by
  rw [run_bind, run_lift, bind_assoc]
  rfl

/-- A handler goes on with the state in which the failure occurred. -/
theorem run_tryCatch (p : HostM σ α) (f : UsbError → HostM σ α) (s : Link) :
    (tryCatch p f).run.run s = p.run.run s >>= fun r =>
      match r.1 with
      | .ok a => pure (.ok a, r.2)
      | .error e => (f e).run.run r.2 := by
  show p.run.run s >>= _ = _
  congr 1
  funext r
  obtain ⟨r, s'⟩ := r
  cases r <;> rfl

/-- What follows a program of which nothing is known. -/
theorem yields_lift {p : Run Register σ α} {f : α → HostM σ β} {s : Link}
    {w : World Register σ}
    {Q : Except UsbError β × Link → World Register σ → Prop}
    (hf : ∀ a w', ((f a).run.run s).Yields False w' Q) :
    ((liftM p >>= f).run.run s).Yields False w Q := by
  rw [run_lift_bind]
  exact .bind_any hf

/-! ## Invariants of the state -/

/-- Whatever happens on the bus and whether or not it succeeds, the operation
keeps `I`. -/
def Keeps (I : Link → Prop) (p : HostM σ α) : Prop :=
  ∀ s w, I s → (p.run.run s).Yields False w fun r _ => I r.2

namespace Keeps

variable {I : Link → Prop}

theorem pure (a : α) : Keeps I (Pure.pure a : HostM σ α) := by
  intro s w hs
  rw [run_pure]
  exact .pure hs

theorem get : Keeps I (MonadState.get : HostM σ Link) := by
  intro s w hs
  rw [run_get]
  exact .pure hs

theorem throw (e : UsbError) : Keeps I (MonadExcept.throw e : HostM σ α) := by
  intro s w hs
  rw [run_throw]
  exact .pure hs

theorem modify {f : Link → Link} (h : ∀ s, I s → I (f s)) :
    Keeps I (modify f : HostM σ Unit) := by
  intro s w hs
  rw [run_modify]
  exact .pure (h s hs)

theorem lift (p : Run Register σ α) : Keeps I (liftM p : HostM σ α) := by
  intro s w hs
  rw [run_lift]
  exact .bind_any fun _ _ => .pure hs

theorem bind {p : HostM σ α} {f : α → HostM σ β} (hp : Keeps I p)
    (hf : ∀ a, Keeps I (f a)) : Keeps I (p >>= f) := by
  intro s w hs
  rw [run_bind]
  refine (hp s w hs).bind fun r w' hr => ?_
  cases h : r.1 with
  | ok a => exact hf a r.2 w' hr
  | error e => exact .pure hr

theorem tryCatch {p : HostM σ α} {f : UsbError → HostM σ α} (hp : Keeps I p)
    (hf : ∀ e, Keeps I (f e)) : Keeps I (MonadExcept.tryCatch p f) := by
  intro s w hs
  rw [run_tryCatch]
  refine (hp s w hs).bind fun r w' hr => ?_
  cases h : r.1 with
  | ok a => exact .pure hr
  | error e => exact hf e r.2 w' hr

end Keeps

/-- Started in a state that satisfies `I`, the operation ends in one that
satisfies `J`, whether or not it succeeds. -/
def Ends (I J : Link → Prop) (p : HostM σ α) : Prop :=
  ∀ s w, I s → (p.run.run s).Yields False w fun r _ => J r.2

namespace Ends

variable {I I' J : Link → Prop}

theorem of_keeps {p : HostM σ α} (hp : Keeps I p) (hJ : ∀ s, I s → J s) :
    Ends I J p :=
  fun s w hs => (hp s w hs).mono fun r _ hr => hJ r.2 hr

theorem throw (e : UsbError) (hJ : ∀ s, I s → J s) :
    Ends I J (MonadExcept.throw e : HostM σ α) :=
  of_keeps (.throw e) hJ

/-- A step of the state, and what follows it. -/
theorem modify_bind {f : Link → Link} {g : Unit → HostM σ α}
    (h : ∀ s, I s → I' (f s)) (hg : ∀ a, Ends I' J (g a)) :
    Ends I J ((modify f : HostM σ Unit) >>= g) := by
  intro s w hs
  rw [run_bind, run_modify, pure_bind]
  exact hg () (f s) w (h s hs)

theorem modify {f : Link → Link} (h : ∀ s, I s → J (f s)) :
    Ends I J (modify f : HostM σ Unit) := by
  intro s w hs
  rw [run_modify]
  exact .pure (h s hs)

/-- What keeps `I` may fail where `I` is enough. -/
theorem bind {p : HostM σ β} {f : β → HostM σ α} (hp : Keeps I p)
    (hJ : ∀ s, I s → J s) (hf : ∀ a, Ends I J (f a)) :
    Ends I J (p >>= f) := by
  intro s w hs
  rw [run_bind]
  refine (hp s w hs).bind fun r w' hr => ?_
  cases h : r.1 with
  | ok a => exact hf a r.2 w' hr
  | error e => exact .pure (hJ r.2 hr)

end Ends

/-! ## What success means -/

/-- If it succeeds from a state that satisfies `I`, the operation has made sure
of `J`. -/
def Achieves (I J : Link → Prop) (p : HostM σ α) : Prop :=
  ∀ s w, I s →
    (p.run.run s).Yields False w fun r _ => ∀ a, r.1 = .ok a → J r.2

namespace Achieves

variable {I J K : Link → Prop}

theorem any (p : HostM σ α) : Achieves I (fun _ => True) p :=
  fun _ w _ => (Run.Yields.any _ w).mono fun _ _ _ _ _ => trivial

theorem of_keeps {p : HostM σ α} (hp : Keeps I p) : Achieves I I p :=
  fun s w hs => (hp s w hs).mono fun _ _ hr _ _ => hr

theorem modify {f : Link → Link} (h : ∀ s, I s → J (f s)) :
    Achieves I J (modify f : HostM σ Unit) := by
  intro s w hs
  rw [run_modify]
  exact .pure fun _ _ => h s hs

theorem throw (e : UsbError) :
    Achieves I J (MonadExcept.throw e : HostM σ α) := by
  intro s w hs
  rw [run_throw]
  exact .pure fun _ => nofun

theorem bind {p : HostM σ α} {f : α → HostM σ β} (hp : Achieves I J p)
    (hf : ∀ a, Achieves J K (f a)) : Achieves I K (p >>= f) := by
  intro s w hs
  rw [run_bind]
  refine (hp s w hs).bind fun r w' hr => ?_
  cases h : r.1 with
  | ok a => exact hf a r.2 w' (hr a h)
  | error e => exact .pure fun _ => nofun

/-- What is achieved by the rest, whatever comes before it. -/
theorem rest {p : HostM σ α} {f : α → HostM σ β}
    (hf : ∀ a, Achieves (fun _ => True) K (f a)) : Achieves I K (p >>= f) :=
  (any p).bind hf

end Achieves

/-! ## Whatever becomes of an operation -/

section Always

variable {s : Link} {w : World Register σ} {H : World Register σ → Prop}
  {Q : Except UsbError β × Link → World Register σ → Prop}

/-- A sequence ends with the first failure, or where one of its parts stops. -/
theorem always_bind {p : HostM σ α} {f : α → HostM σ β}
    {R : Except UsbError α × Link → World Register σ → Prop}
    (h : (p.run.run s).Always w R H)
    (hok : ∀ a s' w', R (.ok a, s') w' → ((f a).run.run s').Always w' Q H)
    (herror : ∀ e s' w', R (.error e, s') w' → Q (.error e, s') w') :
    ((p >>= f).run.run s).Always w Q H := by
  rw [run_bind]
  refine h.bind fun r w' hr => ?_
  obtain ⟨r, s'⟩ := r
  cases r with
  | ok a => exact hok a s' w' hr
  | error e => exact .pure (herror e s' w' hr)

/-- A program that knows nothing of the device, and the operation after it. -/
theorem always_lift {p : Run Register σ α} {f : α → HostM σ β}
    {R : α → World Register σ → Prop} (h : p.Always w R H)
    (hf : ∀ a w', R a w' → ((f a).run.run s).Always w' Q H) :
    ((liftM p >>= f).run.run s).Always w Q H := by
  rw [run_lift_bind]
  exact h.bind hf

end Always

/-- Started where `P` holds of the world, the operation returns where it holds,
successful or not, or stops where `H` holds. -/
def Maintains (P H : World Register σ → Prop) (p : HostM σ α) : Prop :=
  ∀ s, Run.Maintains P H (p.run.run s)

namespace Maintains

variable {P H : World Register σ → Prop}

theorem pure (a : α) : Maintains P H (Pure.pure a : HostM σ α) :=
  fun _ => .pure _

theorem get : Maintains P H (MonadState.get : HostM σ Link) :=
  fun _ => .pure _

theorem throw (e : UsbError) :
    Maintains P H (MonadExcept.throw e : HostM σ α) :=
  fun _ => .pure _

theorem modify (f : Link → Link) :
    Maintains P H (modify f : HostM σ Unit) :=
  fun _ => .pure _

theorem lift {p : Run Register σ α} (hp : Run.Maintains P H p) :
    Maintains P H (liftM p : HostM σ α) := by
  intro s
  rw [run_lift]
  exact hp.bind fun _ => .pure _

theorem bind {p : HostM σ α} {f : α → HostM σ β} (hp : Maintains P H p)
    (hf : ∀ a, Maintains P H (f a)) : Maintains P H (p >>= f) := by
  intro s
  rw [run_bind]
  refine (hp s).bind fun r => ?_
  cases r.1 with
  | ok a => exact hf a r.2
  | error e => exact .pure _

theorem tryCatch {p : HostM σ α} {f : UsbError → HostM σ α}
    (hp : Maintains P H p) (hf : ∀ e, Maintains P H (f e)) :
    Maintains P H (MonadExcept.tryCatch p f) := by
  intro s
  rw [run_tryCatch]
  refine (hp s).bind fun r => ?_
  cases r.1 with
  | ok a => exact .pure _
  | error e => exact hf e r.2

section Ends

variable {Q : World Register σ → Prop} {s : Link} {w : World Register σ}

/-- An operation that maintains `P` ends where what `P` implies holds. -/
theorem ends {p : HostM σ α} (hp : Maintains P H p) (hend : ∀ w, P w → Q w)
    (s : Link) (hw : P w) : (p.run.run s).Always w (fun _ => Q) H :=
  (hp s w hw).mono fun _ => hend

/-- An operation that maintains `P`, and what follows it. -/
theorem before {p : HostM σ α} {f : α → HostM σ β} (hp : Maintains P H p)
    (hend : ∀ w, P w → Q w) (hw : P w)
    (hf : ∀ a s w, P w → ((f a).run.run s).Always w (fun _ => Q) H) :
    ((p >>= f).run.run s).Always w (fun _ => Q) H :=
  always_bind (hp s w hw) hf fun _ _ w' hw' => hend w' hw'

end Ends

end Maintains

/-- Started where `P` holds of the world, the operation ends where it holds,
successful or not, or stops where it holds. -/
def Preserves (P : World Register σ → Prop) (p : HostM σ α) : Prop :=
  ∀ s, Run.Preserves P (p.run.run s)

namespace Preserves

variable {P : World Register σ → Prop}

theorem pure (a : α) : Preserves P (Pure.pure a : HostM σ α) :=
  Maintains.pure a

theorem throw (e : UsbError) :
    Preserves P (MonadExcept.throw e : HostM σ α) :=
  Maintains.throw e

theorem modify (f : Link → Link) : Preserves P (modify f : HostM σ Unit) :=
  Maintains.modify f

theorem lift {p : Run Register σ α} (hp : Run.Preserves P p) :
    Preserves P (liftM p : HostM σ α) :=
  Maintains.lift hp

theorem bind {p : HostM σ α} {f : α → HostM σ β} (hp : Preserves P p)
    (hf : ∀ a, Preserves P (f a)) : Preserves P (p >>= f) :=
  Maintains.bind hp hf

theorem tryCatch {p : HostM σ α} {f : UsbError → HostM σ α}
    (hp : Preserves P p) (hf : ∀ e, Preserves P (f e)) :
    Preserves P (MonadExcept.tryCatch p f) :=
  Maintains.tryCatch hp hf

end Preserves

end UsbHost.HostM
