import UsbHost.Wire.Records

/-!
# The grammar of records

A byte string is a sequence of records and a rest in which no record begins.
There is just one way to take it so, and the walk over it finds it: whatever the
bytes are, it hands out these records one by one, and nothing any more after the
last of them.

## Main results

* `nextRecord?_eq_some_iff`, `nextRecord?_eq_none_iff` — where a record begins
  and where none does.
* `walk_induction` — induction over the records of a byte string.
* `stepRecord_leftAfter`, `leftAfter_of_length_lt` — the walk, step by step.
* `walk_exact` — the walk accepts the grammar and nothing else.
-/

namespace UsbHost

/-! ## The grammar -/

/-- A record has at least two bytes.  The first tells how many there are, the
second what they describe. -/
structure Record.WellFormed (r : Record) : Prop where
  long : 2 ≤ r.bytes.length
  size : (byteAt r.bytes 0).toNat = r.bytes.length
  kind : r.kind = DescriptorType.coding.decode (byteAt r.bytes 1)

/-- No record begins here: there is nothing, or the first byte is less than two
or more than there are bytes. -/
def Unreadable : List Byte → Prop
  | [] => True
  | first :: tail => first.toNat < 2 ∨ (first :: tail).length < first.toNat

/-! ## One record -/

variable {bytes rest : List Byte} {r : Record}

theorem nextRecord?_eq_none_iff :
    nextRecord? bytes = none ↔ Unreadable bytes := by
  cases bytes with
  | nil => simp [nextRecord?, Unreadable]
  | cons first tail =>
    simp only [nextRecord?, Unreadable, ite_eq_right_iff, reduceCtorEq,
      imp_false]
    omega

theorem Record.WellFormed.exists_cons (h : r.WellFormed) :
    ∃ first tail, r.bytes = first :: tail ∧ first.toNat = r.bytes.length := by
  obtain ⟨hlong, hsize, -⟩ := h
  cases hb : r.bytes with
  | nil => simp [hb] at hlong
  | cons first tail =>
    rw [hb] at hsize
    exact ⟨first, tail, rfl, hsize⟩

/-- A record at the front is found, whatever follows it. -/
theorem nextRecord?_append (h : r.WellFormed) (rest : List Byte) :
    nextRecord? (r.bytes ++ rest) = some (r, rest) := by
  obtain ⟨first, tail, hb, hfirst⟩ := h.exists_cons
  have hlong := h.long
  have hkind : byteAt (r.bytes ++ rest) 1 = byteAt r.bytes 1 := by
    rw [byteAt, List.getElem?_append_left (by omega), byteAt]
  have hfits : 2 ≤ first.toNat ∧ first.toNat ≤ (r.bytes ++ rest).length := by
    rw [List.length_append]
    omega
  have hnext : nextRecord? (r.bytes ++ rest) =
      some (⟨DescriptorType.coding.decode (byteAt (r.bytes ++ rest) 1),
        (r.bytes ++ rest).take first.toNat⟩,
        (r.bytes ++ rest).drop first.toNat) := by
    rw [hb] at hfits ⊢
    exact if_pos hfits
  rw [hnext, hkind, ← h.kind, hfirst, List.take_left, List.drop_left]

/-- What is found at the front is a record, and the byte string is this record
and what follows it. -/
theorem nextRecord?_eq_some_iff :
    nextRecord? bytes = some (r, rest) ↔
      r.WellFormed ∧ bytes = r.bytes ++ rest := by
  constructor
  · intro h
    cases bytes with
    | nil => simp [nextRecord?] at h
    | cons first tail =>
      simp only [nextRecord?, Option.ite_none_right_eq_some, Option.some.injEq,
        Prod.mk.injEq] at h
      obtain ⟨⟨hlong, hfits⟩, rfl, rfl⟩ := h
      have hlength :
          ((first :: tail).take first.toNat).length = first.toNat := by
        rw [List.length_take, Nat.min_eq_left hfits]
      have hbyte : ∀ i, i < first.toNat →
          byteAt ((first :: tail).take first.toNat) i =
            byteAt (first :: tail) i := by
        intro i hi
        rw [byteAt, List.getElem?_take_of_lt hi, byteAt]
      refine ⟨⟨?_, ?_, ?_⟩, (List.take_append_drop _ _).symm⟩
      · rw [hlength]
        exact hlong
      · rw [hlength, hbyte 0 (by omega)]
        rfl
      · rw [hbyte 1 (by omega)]
  · rintro ⟨h, rfl⟩
    exact nextRecord?_append h rest

/-! ## All records -/

theorem records_append (h : r.WellFormed) (rest : List Byte) :
    records (r.bytes ++ rest) = r :: records rest := by
  rw [records_eq, nextRecord?_append h]

theorem records_of_unreadable (h : Unreadable bytes) : records bytes = [] := by
  rw [records_eq, nextRecord?_eq_none_iff.2 h]

/-- What holds where no record begins, and of a record and what follows it
whenever it holds of what follows it, holds of every byte string. -/
theorem walk_induction {P : List Byte → Prop}
    (stop : ∀ bytes, Unreadable bytes → P bytes)
    (next : ∀ (r : Record) rest, r.WellFormed → P rest → P (r.bytes ++ rest)) :
    ∀ bytes, P bytes := by
  intro bytes
  induction hn : bytes.length using Nat.strongRecOn generalizing bytes with
  | ind n ih =>
    cases hnext : nextRecord? bytes with
    | none => exact stop bytes (nextRecord?_eq_none_iff.1 hnext)
    | some found =>
      obtain ⟨r, rest⟩ := found
      have hshorter := length_of_nextRecord? hnext
      obtain ⟨hr, rfl⟩ := nextRecord?_eq_some_iff.1 hnext
      exact next r rest hr (ih rest.length (by omega) rest rfl)

/-- Every record that is found is one. -/
theorem wellFormed_of_mem (h : r ∈ records bytes) : r.WellFormed := by
  induction bytes using walk_induction with
  | stop bytes hstop => simp [records_of_unreadable hstop] at h
  | next first rest hfirst ih =>
    rw [records_append hfirst, List.mem_cons] at h
    rcases h with rfl | h
    · exact hfirst
    · exact ih h

/-- No record is longer than the byte string it stands in. -/
theorem length_le_of_mem (h : r ∈ records bytes) :
    r.bytes.length ≤ bytes.length := by
  induction bytes using walk_induction with
  | stop bytes hstop => simp [records_of_unreadable hstop] at h
  | next first rest hfirst ih =>
    rw [List.length_append]
    rw [records_append hfirst, List.mem_cons] at h
    rcases h with rfl | h
    · omega
    · have := ih h
      omega

/-- Walking over records one after another finds them, up to a rest in which
none begins. -/
theorem records_flatMap {rs : List Record} (hrs : ∀ r ∈ rs, r.WellFormed)
    (hrest : Unreadable rest) :
    records (rs.flatMap Record.bytes ++ rest) = rs := by
  induction rs with
  | nil => exact records_of_unreadable hrest
  | cons r rs ih =>
    have hr : r.WellFormed := hrs r List.mem_cons_self
    have ih := ih fun r' hr' => hrs r' (List.mem_cons_of_mem r hr')
    rw [List.flatMap_cons, List.append_assoc, records_append hr, ih]

/-! ## The walk -/

/-- What is left of a byte string after some steps of a walk over it. -/
def leftAfter : Nat → List Byte → List Byte
  | 0, bytes => bytes
  | steps + 1, bytes => leftAfter steps (stepRecord bytes).2

theorem stepRecord_append (h : r.WellFormed) (rest : List Byte) :
    stepRecord (r.bytes ++ rest) = (some r, rest) := by
  simp [stepRecord, nextRecord?_append h]

theorem stepRecord_of_unreadable (h : Unreadable bytes) :
    stepRecord bytes = (none, []) := by
  simp [stepRecord, nextRecord?_eq_none_iff.2 h]

/-- Where nothing is left, no step changes that. -/
theorem leftAfter_nil (steps : Nat) : leftAfter steps [] = [] := by
  induction steps with
  | zero => rfl
  | succ steps ih => exact ih

/-- Each step hands out the next record, and nothing after the last one. -/
theorem stepRecord_leftAfter (steps : Nat) (bytes : List Byte) :
    (stepRecord (leftAfter steps bytes)).1 = (records bytes)[steps]? := by
  induction bytes using walk_induction generalizing steps with
  | stop bytes hstop =>
    cases steps with
    | zero => simp [leftAfter, stepRecord_of_unreadable hstop,
        records_of_unreadable hstop]
    | succ steps =>
      simp only [leftAfter, stepRecord_of_unreadable hstop, leftAfter_nil,
        records_of_unreadable hstop]
      rfl
  | next r rest hr ih =>
    cases steps with
    | zero => simp [leftAfter, stepRecord_append hr, records_append hr]
    | succ steps =>
      simp [leftAfter, stepRecord_append hr, records_append hr, ih]

/-- When all records have been handed out, what is left is a rest in which none
begins, and together they are the whole byte string. -/
theorem leftAfter_records (bytes : List Byte) :
    bytes = (records bytes).flatMap Record.bytes ++
        leftAfter (records bytes).length bytes ∧
      Unreadable (leftAfter (records bytes).length bytes) := by
  induction bytes using walk_induction with
  | stop bytes hstop =>
    rw [records_of_unreadable hstop]
    exact ⟨rfl, hstop⟩
  | next r rest hr ih =>
    obtain ⟨hrest, hstop⟩ := ih
    simp only [records_append hr, List.flatMap_cons, List.length_cons,
      leftAfter, stepRecord_append hr, List.append_assoc]
    exact ⟨congrArg (r.bytes ++ ·) hrest, hstop⟩

/-- The step after that leaves nothing, and so do all others. -/
theorem leftAfter_of_length_lt {steps : Nat}
    (h : (records bytes).length < steps) : leftAfter steps bytes = [] := by
  induction bytes using walk_induction generalizing steps with
  | stop bytes hstop =>
    cases steps with
    | zero => omega
    | succ steps =>
      simp [leftAfter, stepRecord_of_unreadable hstop, leftAfter_nil]
  | next r rest hr ih =>
    rw [records_append hr, List.length_cons] at h
    cases steps with
    | zero => omega
    | succ steps =>
      rw [leftAfter, stepRecord_append hr]
      exact ih (by omega)

/-- The walk over a byte string accepts the grammar of records and nothing else.
What it hands out are records that follow one another from the front, up to a
rest in which none begins; any records that are followed by such a rest are
handed out just as they are; and once it has handed out the last one, it hands
out nothing more and has nothing left. -/
theorem walk_exact (bytes : List Byte) :
    let rest := leftAfter (records bytes).length bytes
    ((∀ r ∈ records bytes, r.WellFormed) ∧
      bytes = (records bytes).flatMap Record.bytes ++ rest ∧
      Unreadable rest) ∧
    (∀ (rs : List Record) rest, (∀ r ∈ rs, r.WellFormed) → Unreadable rest →
      records (rs.flatMap Record.bytes ++ rest) = rs) ∧
    (∀ steps,
      (stepRecord (leftAfter steps bytes)).1 = (records bytes)[steps]?) ∧
    ∀ steps, (records bytes).length < steps → leftAfter steps bytes = [] := by
  intro rest
  have hleft := leftAfter_records bytes
  refine ⟨⟨fun r hr => wellFormed_of_mem hr, hleft⟩, ?_, ?_, ?_⟩
  · exact fun rs rest hrs hrest => records_flatMap hrs hrest
  · exact fun steps => stepRecord_leftAfter steps bytes
  · exact fun steps hsteps => leftAfter_of_length_lt hsteps

/-- An interface and a class-specific record that runs past the end: one record
is handed out, and then nothing any more. -/
theorem truncated_record_left :
    let first : Record := ⟨.interface, [9, 4, 0, 0, 2, 0xFF, 0x5D, 1, 0]⟩
    let rest : List Byte := [6, 0x21, 0x10]
    let bytes := first.bytes ++ rest
    first.WellFormed ∧ Unreadable rest ∧ records bytes = [first] ∧
      leftAfter 1 bytes = rest ∧ (stepRecord rest).1 = none ∧
      leftAfter 2 bytes = [] := by
  intro first rest bytes
  have hfirst : first.WellFormed := ⟨by decide, by decide, by decide⟩
  have hrest : Unreadable rest := .inr (by decide)
  obtain ⟨-, hconverse, hsteps, hstopped⟩ := walk_exact bytes
  have hrecords : records bytes = [first] :=
    hconverse [first] rest (by simpa using hfirst) hrest
  have hleft : leftAfter 1 bytes = rest := rfl
  have hnone : (stepRecord (leftAfter 1 bytes)).1 = none := by
    rw [hsteps, hrecords]
    rfl
  refine ⟨hfirst, hrest, hrecords, hleft, hleft ▸ hnone, ?_⟩
  exact hstopped 2 (by rw [hrecords]; decide)

end UsbHost
