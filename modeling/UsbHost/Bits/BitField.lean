import UsbHost.Bits.Word

/-!
# Bit fields of packed registers

A register type is a raw word under a name of its own (`Packed`).  A
`BitField R α` is a range of bits of such a register together with the way its
bit patterns stand for values of `α` (`Coding`).  Reading extracts and decodes
the range; writing replaces the range and nothing else.

## Main results

* `raw_set_outside` — a write keeps every bit outside the field's range.
* `get_set` — a field reads back what was written to it.
* `set_get` — writing what a field reads as changes nothing, provided its bit
  pattern is the canonical one of its value.
* `set_set` — of two writes to one field the last one counts.
* `set_comm` — writes to disjoint fields commute.
* `get_congr` — a field is read from its own bits alone.
-/

namespace UsbHost

/-- A type whose values are `n`-bit words under another name. -/
class Packed (R : Type) (n : outParam Nat) where
  raw : R → BitVec n
  ofRaw : BitVec n → R
  raw_ofRaw : ∀ b, raw (ofRaw b) = b
  ofRaw_raw : ∀ r, ofRaw (raw r) = r

attribute [simp] Packed.raw_ofRaw Packed.ofRaw_raw

/-! ## Codings -/

/-- How bit patterns of a width stand for values.  Each value has one
canonical pattern; other patterns may decode to it as well. -/
structure Coding (α : Type) (width : Nat) where
  decode : BitVec width → α
  encode : α → BitVec width
  decode_encode : ∀ a, decode (encode a) = a

namespace Coding

/-- One bit, set for `true`. -/
def flag : Coding Bool 1 where
  decode b := b.getLsbD 0
  encode := BitVec.ofBool
  decode_encode a := by cases a <;> rfl

/-- The pattern is the value. -/
def uint (width : Nat) : Coding (BitVec width) width where
  decode := id
  encode := id
  decode_encode _ := rfl

/-- Every pattern is the canonical one of its value. -/
def Exact {α : Type} {width : Nat} (c : Coding α width) : Prop :=
  ∀ b, c.encode (c.decode b) = b

theorem flag_exact : flag.Exact := by
  intro b
  apply BitVec.eq_of_getLsbD_eq
  intro i hi
  have : i = 0 := by omega
  subst this
  simp [flag]

theorem uint_exact (width : Nat) : (uint width).Exact := fun _ => rfl

end Coding

/-! ## Fields -/

/-- The bits `lo` to `lo + width - 1` of a register, read through a coding. -/
structure BitField (R : Type) {n : Nat} [Packed R n] (α : Type) where
  lo : Nat
  width : Nat
  coding : Coding α width
  fits : lo + width ≤ n

namespace BitField

variable {R : Type} {n : Nat} [Packed R n] {α β : Type}

/-- A single bit. -/
def flag (lo : Nat) (fits : lo + 1 ≤ n := by decide) : BitField R Bool :=
  ⟨lo, 1, .flag, fits⟩

/-- An unsigned number. -/
def uint (lo width : Nat) (fits : lo + width ≤ n := by decide) :
    BitField R (BitVec width) :=
  ⟨lo, width, .uint width, fits⟩

/-- A field of the width and with the meaning of a coding. -/
def coded {width : Nat} (lo : Nat) (coding : Coding α width)
    (fits : lo + width ≤ n := by decide) : BitField R α :=
  ⟨lo, width, coding, fits⟩

/-- Whether bit `i` of the register belongs to the field. -/
def Covers (f : BitField R α) (i : Nat) : Prop := f.lo ≤ i ∧ i < f.lo + f.width

instance (f : BitField R α) (i : Nat) : Decidable (f.Covers i) :=
  inferInstanceAs (Decidable (_ ∧ _))

/-- Ones exactly in the field's range. -/
def mask (f : BitField R α) : BitVec n :=
  (BitVec.allOnes f.width).setWidth n <<< f.lo

/-- The value of the field. -/
def get (f : BitField R α) (r : R) : α :=
  f.coding.decode ((Packed.raw r).extractLsb' f.lo f.width)

/-- The register with the field replaced. -/
def set (f : BitField R α) (a : α) (r : R) : R :=
  Packed.ofRaw
    ((Packed.raw r &&& ~~~f.mask) |||
      ((f.coding.encode a).setWidth n <<< f.lo))

/-! ## Laws -/

theorem getLsbD_mask (f : BitField R α) (i : Nat) :
    f.mask.getLsbD i = decide (f.Covers i) := by
  have := f.fits
  simp only [mask, Covers, BitVec.getLsbD_shiftLeft, BitVec.getLsbD_setWidth,
    BitVec.getLsbD_allOnes]
  by_cases h1 : f.lo ≤ i <;> by_cases h2 : i < f.lo + f.width <;>
    simp [h1, h2] <;> omega

theorem getLsbD_set (f : BitField R α) (a : α) (r : R) (i : Nat) :
    (Packed.raw (f.set a r)).getLsbD i =
      if f.Covers i then (f.coding.encode a).getLsbD (i - f.lo)
      else (Packed.raw r).getLsbD i := by
  have hf := f.fits
  simp only [set, Packed.raw_ofRaw, BitVec.getLsbD_or, BitVec.getLsbD_and,
    BitVec.getLsbD_not, getLsbD_mask, BitVec.getLsbD_shiftLeft,
    BitVec.getLsbD_setWidth]
  by_cases hc : f.Covers i
  · have h : f.lo ≤ i ∧ i < f.lo + f.width := hc
    have h1 : i < n := by omega
    have h2 : ¬ i < f.lo := by omega
    have h3 : i - f.lo < n := by omega
    simp [hc, h1, h2, h3]
  · have h : ¬ (f.lo ≤ i ∧ i < f.lo + f.width) := hc
    simp only [hc, decide_false, Bool.not_false, Bool.and_true, if_false]
    by_cases h1 : i < n
    · by_cases h2 : i < f.lo
      · simp [h1, h2]
      · have : (f.coding.encode a).getLsbD (i - f.lo) = false :=
          BitVec.getLsbD_of_ge _ _ (by omega)
        simp [h1, this]
    · have : (Packed.raw r).getLsbD i = false :=
        BitVec.getLsbD_of_ge _ _ (by omega)
      simp [h1, this]

/-- A write keeps every bit outside the field's range. -/
theorem raw_set_outside (f : BitField R α) (a : α) (r : R) {i : Nat}
    (h : ¬ f.Covers i) :
    (Packed.raw (f.set a r)).getLsbD i = (Packed.raw r).getLsbD i := by
  simp [getLsbD_set, h]

theorem extract_set (f : BitField R α) (a : α) (r : R) :
    (Packed.raw (f.set a r)).extractLsb' f.lo f.width = f.coding.encode a := by
  apply BitVec.eq_of_getLsbD_eq
  intro i hi
  have hc : f.Covers (f.lo + i) := ⟨by omega, by omega⟩
  simp [hi, getLsbD_set, hc]

/-- A field reads back what was written to it. -/
@[simp] theorem get_set (f : BitField R α) (a : α) (r : R) :
    f.get (f.set a r) = a := by
  simp [get, extract_set, f.coding.decode_encode]

/-- A single bit reads as it stands in the register. -/
theorem get_flag {lo : Nat} (fits : lo + 1 ≤ n) (r : R) :
    (flag lo fits : BitField R Bool).get r = (Packed.raw r).getLsbD lo := by
  show ((Packed.raw r).extractLsb' lo 1).getLsbD 0 = _
  simp

/-- Two registers with the same bits are the same register. -/
theorem eq_of_getLsbD_eq {r s : R}
    (h : ∀ i, i < n → (Packed.raw r).getLsbD i = (Packed.raw s).getLsbD i) :
    r = s := by
  have : Packed.raw r = Packed.raw s := BitVec.eq_of_getLsbD_eq (h · ·)
  rw [← Packed.ofRaw_raw r, this, Packed.ofRaw_raw]

/-- Writing what a field reads as changes nothing where its bit pattern is
the canonical one of its value. -/
theorem set_get_of_canonical (f : BitField R α) (r : R)
    (h : f.coding.encode (f.get r) =
      (Packed.raw r).extractLsb' f.lo f.width) :
    f.set (f.get r) r = r := by
  apply eq_of_getLsbD_eq
  intro i _
  rw [getLsbD_set, h]
  split
  next hc =>
    have hlo : f.lo ≤ i ∧ i < f.lo + f.width := hc
    have h1 : i - f.lo < f.width := by omega
    have h2 : f.lo + (i - f.lo) = i := by omega
    simp [h1, h2]
  next => rfl

/-- Writing back what a field with an exact coding reads as changes
nothing. -/
theorem set_get (f : BitField R α) (h : f.coding.Exact) (r : R) :
    f.set (f.get r) r = r :=
  f.set_get_of_canonical r (h _)

/-- Of two writes to one field the last one counts. -/
theorem set_set (f : BitField R α) (a b : α) (r : R) :
    f.set a (f.set b r) = f.set a r := by
  apply eq_of_getLsbD_eq
  intro i _
  by_cases hc : f.Covers i <;> simp [getLsbD_set, hc]

/-- Two fields share no bit. -/
def Disjoint (f : BitField R α) (g : BitField R β) : Prop :=
  f.lo + f.width ≤ g.lo ∨ g.lo + g.width ≤ f.lo

instance (f : BitField R α) (g : BitField R β) : Decidable (f.Disjoint g) :=
  inferInstanceAs (Decidable (_ ∨ _))

theorem Disjoint.not_covers {f : BitField R α} {g : BitField R β}
    (h : f.Disjoint g) {i : Nat} (hf : f.Covers i) : ¬ g.Covers i := by
  unfold Disjoint at h
  unfold Covers at *
  omega

theorem Disjoint.symm {f : BitField R α} {g : BitField R β}
    (h : f.Disjoint g) : g.Disjoint f :=
  Or.symm h

/-- Writes to disjoint fields commute. -/
theorem set_comm (f : BitField R α) (g : BitField R β) (h : f.Disjoint g)
    (a : α) (b : β) (r : R) :
    f.set a (g.set b r) = g.set b (f.set a r) := by
  apply eq_of_getLsbD_eq
  intro i _
  by_cases hf : f.Covers i
  · simp [getLsbD_set, hf, h.not_covers hf]
  · by_cases hg : g.Covers i <;> simp [getLsbD_set, hf, hg]

/-- A field is read from its own bits alone. -/
theorem get_congr (f : BitField R α) {r s : R}
    (h : ∀ i, f.Covers i →
      (Packed.raw r).getLsbD i = (Packed.raw s).getLsbD i) :
    f.get r = f.get s := by
  have : (Packed.raw r).extractLsb' f.lo f.width =
      (Packed.raw s).extractLsb' f.lo f.width := by
    apply BitVec.eq_of_getLsbD_eq
    intro i hi
    have hc : f.Covers (f.lo + i) := ⟨by omega, by omega⟩
    simp [hi, h _ hc]
  simp [get, this]

/-- A write does not show in a disjoint field. -/
theorem get_set_of_disjoint (f : BitField R α) (g : BitField R β)
    (h : f.Disjoint g) (b : β) (r : R) : f.get (g.set b r) = f.get r :=
  f.get_congr fun _ hc => raw_set_outside g b r (h.not_covers hc)

end BitField

end UsbHost
