import UsbHost.Bits.Word

/-!
# Sets of named bits

A `FlagSet known` is a word in which only bits of `known` may be set: what
remains of a status register once the bits without a meaning are dropped.

## Main results

* `ext` — a flag set is determined by its bits.
* `bits_truncate`, `bits_union`, `bits_diff`, `bits_compl` — each operation on
  the level of bits.
* `mem_union`, `mem_diff` — the operations as those of sets.
* `truncate_eq_iff` — two words hold the same set if they agree on the known
  bits.
-/

namespace UsbHost

/-- A subset of the bits of `known`. -/
structure FlagSet {n : Nat} (known : BitVec n) where
  bits : BitVec n
  within : bits &&& ~~~known = 0

namespace FlagSet

variable {n : Nat} {known : BitVec n}

@[ext] theorem ext {s t : FlagSet known} (h : s.bits = t.bits) : s = t := by
  cases s; cases t; cases h; rfl

instance : DecidableEq (FlagSet known) := fun s t =>
  if h : s.bits = t.bits then isTrue (ext h)
  else isFalse fun e => h (e ▸ rfl)

/-- A flag set holds known bits only. -/
theorem bits_and_known (s : FlagSet known) : s.bits &&& known = s.bits := by
  apply BitVec.eq_of_getLsbD_eq
  intro i hi
  have hw : (s.bits &&& ~~~known).getLsbD i = false := by simp [s.within]
  rw [BitVec.getLsbD_and, BitVec.getLsbD_not] at hw
  rw [BitVec.getLsbD_and]
  revert hw
  cases s.bits.getLsbD i <;> cases known.getLsbD i <;> simp [hi]

/-- Drops the bits without a meaning. -/
def truncate (b : BitVec n) : FlagSet known :=
  ⟨b &&& known, by
    apply BitVec.eq_of_getLsbD_eq
    intro i hi
    cases hk : known.getLsbD i <;> simp [hk]⟩

@[simp] theorem bits_truncate (b : BitVec n) :
    (truncate b : FlagSet known).bits = b &&& known := rfl

/-- Accepts only words without an unknown bit. -/
def ofBits? (b : BitVec n) : Option (FlagSet known) :=
  if h : b &&& ~~~known = 0 then some ⟨b, h⟩ else none

/-- No bit set. -/
def empty : FlagSet known := truncate 0

/-- Every known bit set. -/
def all : FlagSet known := truncate (BitVec.allOnes n)

instance : Inhabited (FlagSet known) := ⟨empty⟩

def isEmpty (s : FlagSet known) : Bool := s.bits == 0

/-- Every known bit is set. -/
def isAll (s : FlagSet known) : Bool := known &&& s.bits == known

/-- Every bit of `t` is in `s`. -/
def contains (s t : FlagSet known) : Bool := s.bits &&& t.bits == t.bits

/-- Some bit is in both. -/
def intersects (s t : FlagSet known) : Bool := s.bits &&& t.bits != 0

def union (s t : FlagSet known) : FlagSet known := truncate (s.bits ||| t.bits)

/-- The bits of `s` that are not in `t`. -/
def diff (s t : FlagSet known) : FlagSet known :=
  truncate (s.bits &&& ~~~t.bits)

/-- The known bits that are not in `s`. -/
def compl (s : FlagSet known) : FlagSet known := truncate (~~~s.bits)

theorem bits_union (s t : FlagSet known) :
    (s.union t).bits = s.bits ||| t.bits := by
  rw [union, bits_truncate, BitVec.and_or_distrib_right, s.bits_and_known,
    t.bits_and_known]

theorem bits_diff (s t : FlagSet known) :
    (s.diff t).bits = s.bits &&& ~~~t.bits := by
  rw [diff, bits_truncate, BitVec.and_assoc, BitVec.and_comm _ known,
    ← BitVec.and_assoc, s.bits_and_known]

theorem bits_compl (s : FlagSet known) :
    s.compl.bits = ~~~s.bits &&& known := rfl

/-! ## Members -/

/-- The members of a flag set are the positions of its bits. -/
instance : Membership Nat (FlagSet known) :=
  ⟨fun s i => s.bits.getLsbD i = true⟩

instance (i : Nat) (s : FlagSet known) : Decidable (i ∈ s) :=
  inferInstanceAs (Decidable (s.bits.getLsbD i = true))

variable {s t : FlagSet known} {i : Nat}

theorem mem_iff : i ∈ s ↔ s.bits.getLsbD i = true := Iff.rfl

theorem ext_mem (h : ∀ i, i ∈ s ↔ i ∈ t) : s = t := by
  apply ext
  apply BitVec.eq_of_getLsbD_eq
  intro i _
  rw [Bool.eq_iff_iff]
  exact h i

/-- Only known bits are members. -/
theorem known_of_mem (h : i ∈ s) : known.getLsbD i = true := by
  rw [mem_iff, ← s.bits_and_known, BitVec.getLsbD_and, Bool.and_eq_true] at h
  exact h.2

theorem mem_truncate {b : BitVec n} :
    i ∈ (truncate b : FlagSet known) ↔
      b.getLsbD i = true ∧ known.getLsbD i = true := by
  rw [mem_iff, bits_truncate, BitVec.getLsbD_and, Bool.and_eq_true]

theorem mem_union : i ∈ s.union t ↔ i ∈ s ∨ i ∈ t := by
  rw [mem_iff, bits_union, BitVec.getLsbD_or, Bool.or_eq_true]
  exact Iff.rfl

theorem mem_diff : i ∈ s.diff t ↔ i ∈ s ∧ i ∉ t := by
  have hmem : i ∈ s.diff t ↔ i ∈ s ∧ i < n ∧ ¬ i ∈ t := by
    rw [mem_iff, bits_diff, BitVec.getLsbD_and, BitVec.getLsbD_not]
    simp [mem_iff]
  rw [hmem]
  constructor
  · rintro ⟨hs, -, ht⟩
    exact ⟨hs, ht⟩
  · rintro ⟨hs, ht⟩
    exact ⟨hs, BitVec.lt_of_getLsbD hs, ht⟩

/-- Dropping the bits without a meaning leaves just the known ones to tell two
words apart. -/
theorem truncate_eq_iff {v w : BitVec n} :
    (truncate v : FlagSet known) = truncate w ↔
      ∀ i, known.getLsbD i = true → v.getLsbD i = w.getLsbD i := by
  constructor
  · intro h i hi
    have hmem : i ∈ (truncate v : FlagSet known) ↔
        i ∈ (truncate w : FlagSet known) := by rw [h]
    rw [mem_truncate, mem_truncate, and_iff_left hi, and_iff_left hi] at hmem
    exact Bool.eq_iff_iff.2 hmem
  · intro h
    apply ext_mem
    intro i
    rw [mem_truncate, mem_truncate]
    exact and_congr_left fun hi => by rw [h i hi]

end FlagSet

end UsbHost
