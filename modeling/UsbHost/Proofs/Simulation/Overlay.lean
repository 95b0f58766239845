import UsbHost.Bench.Environment
import UsbHost.Core.Access
import UsbHost.Proofs.Machine.Always

/-!
# Machines that show a simulated core

A machine may have a simulated core behind its bus and yet answer some of the
readings itself, as a bench with scripted readings does.  Writes still reach the
core, and so do the readings of all registers that are known to be genuine.

## Main results

* `Overlay.ofParts` — a machine made of the core and a clock shows the core.
* `Overlay.bench` — a bench shows its core, genuine wherever nothing is
  scripted.
* `Overlay.load` — a genuine register holds what the core says.
* `Overlay.timeless`, `Overlay.preserves_read`, `Overlay.preserves_write` — what
  is kept of the core shown.
-/

namespace UsbHost.Simulation

open Run

variable {σ τ : Type}

/-- The machine shows a controller: every write reaches it, time passes it by,
and a reading is answered by it unless it is replaced by another value, which a
genuine register's never is. -/
structure Overlay (core : Core σ) (view : σ → Option Controller)
    (genuine : Register → Prop) : Prop where
  write : ∀ r v e k, view e = some k →
    view (core.bus.write r v e) = some (k.write r v)
  read : ∀ r e k, view e = some k →
    ((core.bus.read r e).1 = (k.read r).1 ∧
      view (core.bus.read r e).2 = some (k.read r).2) ∨
    (¬ genuine r ∧ view (core.bus.read r e).2 = some k)
  barrier : ∀ e k, view e = some k → view (core.bus.barrier e) = some k
  now : ∀ e k, view e = some k → view (core.clock.now e).2 = some k
  skip : ∀ f d e k, core.clock.skip = some f → view e = some k →
    view (f d e) = some k

/-- A core with a clock of its own shows just itself. -/
theorem Overlay.ofParts (clock : Clock τ) :
    Overlay (.ofParts Controller.bus clock) (fun e => some e.1)
      fun _ => True where
  write := by
    intro r v e k hk
    cases hk
    rfl
  read := by
    intro r e k hk
    cases hk
    exact .inl ⟨rfl, rfl⟩
  barrier _ _ hk := hk
  now _ _ hk := hk
  skip := by
    intro f d e k hf hk
    obtain ⟨g, -, rfl⟩ := Option.map_eq_some_iff.1 hf
    exact hk

/-! ## Benches -/

section Bench

open UsbHost.Bench

theorem lookup_erase_of_ne {α : Type} (t : OffsetTable α) {i j : Nat}
    (h : j ≠ i) : (t.erase i).lookup j = t.lookup j := by
  unfold OffsetTable.erase
  induction t with
  | nil => rfl
  | cons entry rest ih =>
    obtain ⟨l, b⟩ := entry
    by_cases hl : l = i
    · have hjl : (j == l) = false := by simpa [hl] using h
      rw [List.filter_cons_of_neg (by simpa using hl), ih, List.lookup_cons,
        hjl]
    · rw [List.filter_cons_of_pos (by simpa using hl), List.lookup_cons,
        List.lookup_cons, ih]

theorem lookup_insert_of_ne {α : Type} (t : OffsetTable α) {i j : Nat}
    (h : j ≠ i) (a : α) :
    (OffsetTable.insert t i a).lookup j = t.lookup j := by
  have hij : (j == i) = false := by simpa using h
  rw [OffsetTable.insert, List.lookup_cons, hij]
  exact lookup_erase_of_ne t h

/-- Nothing is scripted where nothing is queued and nothing fixed. -/
theorem take?_eq_none_iff {o : Overrides} {i : Nat} :
    o.take? i = none ↔
      (∀ v rest, o.queues.lookup i ≠ some (v :: rest)) ∧
        o.sticky.lookup i = none := by
  unfold Overrides.take?
  split
  next v rest hq => simp [hq]
  next hq => simpa using fun _ => hq

/-- Using up a scripted reading scripts nothing where nothing was scripted. -/
theorem take?_eq_none_of_take? {o o' : Overrides} {i j : Nat} {v : Word}
    (hi : o.take? i = some (v, o')) (hj : o.take? j = none) :
    o'.take? j = none := by
  have hne : j ≠ i := by
    intro e
    subst e
    rw [hi] at hj
    exact nomatch hj
  rw [take?_eq_none_iff] at hj ⊢
  unfold Overrides.take? at hi
  split at hi
  next v' rest hq =>
    cases hi
    simpa only [lookup_insert_of_ne _ hne] using hj
  next =>
    obtain ⟨u, -, hu⟩ := Option.map_eq_some_iff.1 hi
    cases hu
    exact hj

/-- The core that a bench drives, as long as no reading of a genuine register is
scripted. -/
def benchView (genuine : Register → Prop) [DecidablePred genuine]
    (e : Environment × TickingClock) : Option Controller :=
  match e.1.target with
  | .simulated k =>
    if ∀ r ∈ Register.all, genuine r → e.1.overrides.take? r.offset = none then
      some k
    else none
  | .memory _ => none

theorem benchView_eq_some_iff {genuine : Register → Prop}
    [DecidablePred genuine] {e : Environment × TickingClock}
    {k : Controller} :
    benchView genuine e = some k ↔ e.1.target = .simulated k ∧
      ∀ r, genuine r → e.1.overrides.take? r.offset = none := by
  unfold benchView
  cases e.1.target with
  | memory words => simp
  | simulated k' => simp [Register.mem_all, and_comm]

/-- A bench shows its core; genuine is what is not scripted. -/
theorem Overlay.bench (spin : Bool) (genuine : Register → Prop)
    [DecidablePred genuine] :
    Overlay (Bench.machine spin) (benchView genuine) genuine where
  write := by
    intro r v e k hk
    rw [benchView_eq_some_iff] at hk ⊢
    obtain ⟨htarget, hfree⟩ := hk
    refine ⟨?_, hfree⟩
    show e.1.target.write r v = _
    rw [htarget]
    rfl
  read := by
    intro r e k hk
    rw [benchView_eq_some_iff, benchView_eq_some_iff]
    obtain ⟨htarget, hfree⟩ := benchView_eq_some_iff.1 hk
    simp only [Bench.machine, Machine.ofParts, Environment.bus]
    cases ho : e.1.overrides.take? r.offset with
    | none =>
      left
      rw [htarget]
      exact ⟨rfl, rfl, hfree⟩
    | some taken =>
      right
      constructor
      · intro hr
        rw [hfree r hr] at ho
        exact nomatch ho
      · exact ⟨htarget, fun s hs => take?_eq_none_of_take? ho (hfree s hs)⟩
  barrier _ _ hk := hk
  now _ _ hk := hk
  skip := by
    intro f d e k hf hk
    obtain ⟨g, -, rfl⟩ := Option.map_eq_some_iff.1 hf
    exact hk

end Bench

/-! ## Accesses -/

/-- The machine shows a controller that satisfies `P`. -/
def Shows (view : σ → Option Controller) (P : Controller → Prop)
    (w : World Register σ) : Prop :=
  ∃ k, view w.env = some k ∧ P k

namespace Overlay

variable {core : Core σ} {view : σ → Option Controller}
  {genuine : Register → Prop} {P : Controller → Prop}
  (h : Overlay core view genuine)

include h

/-- A genuine register holds what the core says. -/
theorem load {T : Prop} {r : Register} (hr : genuine r) {k : Controller}
    {w : World Register σ} (hk : view w.env = some k) :
    (core.load r).Yields T w fun content w' =>
      content = r.decode (k.read r).1 ∧ view w'.env = some (k.read r).2 := by
  rcases h.read r w.env k hk with ⟨hv, hk'⟩ | ⟨hnot, -⟩
  · exact .of_eq (fun _ => rfl) ⟨congrArg r.decode hv, hk'⟩
  · exact absurd hr hnot

theorem timeless (P : Controller → Prop) : core.Timeless (Shows view P) where
  now w hw := by
    obtain ⟨k, hk, hP⟩ := hw
    exact .of_eq (fun _ => rfl) ⟨k, h.now w.env k hk, hP⟩
  skip f d w hf hw := by
    obtain ⟨k, hk, hP⟩ := hw
    exact ⟨k, h.skip f d w.env k hf hk, hP⟩

theorem preserves_barrier (P : Controller → Prop) :
    Preserves (Shows view P) core.barrier := by
  intro w ⟨k, hk, hP⟩
  exact .of_eq (fun _ => rfl) ⟨k, h.barrier w.env k hk, hP⟩

/-- A reading, replaced or not. -/
theorem preserves_read {r : Register} (hr : ∀ k, P k → P (k.read r).2) :
    Preserves (Shows view P) (core.read r) := by
  intro w ⟨k, hk, hP⟩
  refine .of_eq (fun _ => rfl) ?_
  rcases h.read r w.env k hk with ⟨-, hk'⟩ | ⟨-, hk'⟩
  · exact ⟨_, hk', hr k hP⟩
  · exact ⟨k, hk', hP⟩

theorem always_write {Q : Controller → Prop} {H : World Register σ → Prop}
    {r : Register} {v : Word} {w : World Register σ}
    (hr : ∀ k, P k → Q (k.write r v)) (hw : Shows view P w) :
    (core.write r v).Always w (fun _ => Shows view Q) H := by
  obtain ⟨k, hk, hP⟩ := hw
  exact .of_eq (fun _ => rfl) ⟨_, h.write r v w.env k hk, hr k hP⟩

theorem preserves_write {r : Register} {v : Word}
    (hr : ∀ k, P k → P (k.write r v)) :
    Preserves (Shows view P) (core.write r v) :=
  fun _ hw => h.always_write hr hw

end Overlay

end UsbHost.Simulation
