import UsbHost.Bits.BitField

/-!
# Registers divided into parts

A register is divided, from bit 0 up, into fields and gaps that are reserved.
A division names its parts in this order, and of a gap it knows nothing but the
width.  It is well formed if each field stands just behind the parts before it
and the last part ends with the register.  One width that is wrong would shift
all fields behind it, and two fields share no bit because one of them comes
first; no pair of fields has to be looked at for this.

## Main results

* `Division.ascending` — each field ends before the next one begins.
* `Division.disjoint` — no two fields share a bit.
* `Division.covered_iff` — a bit is reserved just if no field covers it.
-/

namespace UsbHost

/-- A field and what it is called. -/
structure NamedField (R : Type) {n : Nat} [Packed R n] where
  name : String
  {Value : Type}
  bits : BitField R Value

namespace NamedField

variable {R : Type} {n : Nat} [Packed R n]

/-- What a field is called, its highest bit and its lowest one. -/
def place (f : NamedField R) : String × Nat × Nat :=
  (f.name, f.bits.lo + f.bits.width - 1, f.bits.lo)

end NamedField

/-- A part of a register: a field, or some bits without a meaning. -/
inductive Part (R : Type) {n : Nat} [Packed R n] where
  | field (f : NamedField R)
  | reserved (width : Nat)

namespace Part

variable {R : Type} {n : Nat} [Packed R n]

/-- The field, unless it is a gap. -/
def field? : Part R → Option (NamedField R)
  | .field f => some f
  | .reserved _ => none

/-- From bit `lo` up the parts follow each other to the end of the register,
with each field in its place. -/
def Fill : Nat → List (Part R) → Prop
  | lo, [] => lo = n
  | lo, .field f :: rest => f.bits.lo = lo ∧ Fill (lo + f.bits.width) rest
  | lo, .reserved width :: rest => Fill (lo + width) rest

instance decidableFill :
    (lo : Nat) → (parts : List (Part R)) → Decidable (Fill lo parts)
  | lo, [] => inferInstanceAs (Decidable (lo = n))
  | lo, .field f :: rest =>
    have := decidableFill (lo + f.bits.width) rest
    inferInstanceAs (Decidable (_ ∧ _))
  | lo, .reserved width :: rest => decidableFill (lo + width) rest

/-- Whether bit `i` lies in one of the gaps between parts that begin at bit
`lo`. -/
def InGap (i : Nat) : Nat → List (Part R) → Prop
  | _, [] => False
  | lo, .field f :: rest => InGap i (lo + f.bits.width) rest
  | lo, .reserved width :: rest =>
    (lo ≤ i ∧ i < lo + width) ∨ InGap i (lo + width) rest

section Fill

variable {lo : Nat} {parts : List (Part R)}

/-- The fields of a list of parts begin where it begins, or later. -/
theorem Fill.le_lo (h : Fill lo parts) {f : NamedField R}
    (hf : f ∈ parts.filterMap field?) : lo ≤ f.bits.lo := by
  induction parts generalizing lo with
  | nil => exact nomatch hf
  | cons part rest ih =>
    cases part with
    | field g =>
      obtain ⟨hlo, hrest⟩ := h
      obtain rfl | hf := List.mem_cons.1 hf
      · exact Nat.le_of_eq hlo.symm
      · have := ih hrest hf
        omega
    | reserved width =>
      have := ih h hf
      omega

theorem Fill.ascending (h : Fill lo parts) :
    (parts.filterMap field?).Pairwise
      fun f g => f.bits.lo + f.bits.width ≤ g.bits.lo := by
  induction parts generalizing lo with
  | nil => exact .nil
  | cons part rest ih =>
    cases part with
    | field f =>
      obtain ⟨rfl, hrest⟩ := h
      exact .cons (fun g hg => hrest.le_lo hg) (ih hrest)
    | reserved width => exact ih h

/-- Gaps begin where the parts begin, or later. -/
theorem InGap.le {i : Nat} (h : InGap i lo parts) : lo ≤ i := by
  induction parts generalizing lo with
  | nil => exact h.elim
  | cons part rest ih =>
    cases part with
    | field f => exact Nat.le_trans (Nat.le_add_right _ _) (ih h)
    | reserved width =>
      obtain hgap | hrest := h
      · exact hgap.1
      · exact Nat.le_trans (Nat.le_add_right _ _) (ih hrest)

/-- A bit is covered by one of the fields just if it is in none of the gaps. -/
theorem Fill.covered_iff (h : Fill lo parts) {i : Nat} (hlo : lo ≤ i)
    (hi : i < n) :
    (∃ f ∈ parts.filterMap field?, f.bits.Covers i) ↔ ¬ InGap i lo parts := by
  induction parts generalizing lo with
  | nil =>
    have hend : lo = n := h
    omega
  | cons part rest ih =>
    cases part with
    | field f =>
      obtain ⟨rfl, hrest⟩ := h
      by_cases hc : f.bits.Covers i
      · refine iff_of_true ⟨f, List.mem_cons_self, hc⟩ fun hgap => ?_
        exact Nat.not_le_of_lt hc.2 (InGap.le hgap)
      · have hbehind : f.bits.lo + f.bits.width ≤ i := by
          unfold BitField.Covers at hc
          omega
        show (∃ g ∈ f :: rest.filterMap field?, g.bits.Covers i) ↔
          ¬ InGap i (f.bits.lo + f.bits.width) rest
        rw [← ih hrest hbehind]
        simp only [List.mem_cons, exists_eq_or_imp, hc, false_or]
    | reserved width =>
      have hrest : Fill (lo + width) rest := h
      by_cases hin : i < lo + width
      · refine iff_of_false ?_ fun hnot => hnot (.inl ⟨hlo, hin⟩)
        rintro ⟨f, hf, hc⟩
        have hbehind := hrest.le_lo hf
        exact absurd hc.1 (by omega)
      · show (∃ g ∈ rest.filterMap field?, g.bits.Covers i) ↔
          ¬ ((lo ≤ i ∧ i < lo + width) ∨ InGap i (lo + width) rest)
        rw [ih hrest (Nat.le_of_not_lt hin), or_iff_right fun h => hin h.2]

end Fill

end Part

/-- The parts of a register, from bit 0 up. -/
structure Division (R : Type) {n : Nat} [Packed R n] where
  parts : List (Part R)
  fill : Part.Fill 0 parts := by decide

namespace Division

variable {R : Type} {n : Nat} [Packed R n] (d : Division R)

/-- The fields, from bit 0 up. -/
def fields : List (NamedField R) := d.parts.filterMap Part.field?

/-- Each field ends before the next one begins. -/
theorem ascending :
    d.fields.Pairwise fun f g => f.bits.lo + f.bits.width ≤ g.bits.lo :=
  d.fill.ascending

/-- No two fields share a bit. -/
theorem disjoint : d.fields.Pairwise fun f g => f.bits.Disjoint g.bits :=
  d.ascending.imp .inl

/-- Whether bit `i` has no meaning. -/
def Reserved (i : Nat) : Prop := Part.InGap i 0 d.parts

/-- A bit is reserved just if no field covers it. -/
theorem covered_iff {i : Nat} (hi : i < n) :
    (∃ f ∈ d.fields, f.bits.Covers i) ↔ ¬ d.Reserved i :=
  d.fill.covered_iff (Nat.zero_le i) hi

/-- No field covers a reserved bit. -/
theorem not_covers_of_reserved {i : Nat} (h : d.Reserved i)
    {f : NamedField R} (hf : f ∈ d.fields) : ¬ f.bits.Covers i := by
  intro hc
  have hi : i < n := Nat.lt_of_lt_of_le hc.2 f.bits.fits
  exact (d.covered_iff hi).1 ⟨f, hf, hc⟩ h

end Division

end UsbHost
