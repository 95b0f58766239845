import UsbHost.Gamepad.Report

/-!
# Reports and the states they stand for

Of an input report the first byte tells its kind and the second its length; the
state of the pad is in the twelve bytes after them, without bit 11 of the
buttons.  So a state is written into a report and read back from it, and two
reports are read as the same state just if they agree on these bits.

## Main results

* `PadState.view_eq_iff` — when two messages show the same state.
* `PadState.ofReport?_report` — a state is read from the report it is written
  into.
* `PadState.report_exact` — which messages are reports, what of them counts, and
  which states there are reports of.
-/

namespace UsbHost

/-! ## Buttons -/

/-- Every bit of a 16-bit word but bit 11 belongs to a button. -/
theorem Buttons.known_iff {i : Nat} (h : i < 16) :
    (0xF7FF : Half).getLsbD i = true ↔ i ≠ 11 := by
  revert i
  decide

theorem Buttons.not_mem_eleven (b : Buttons) : 11 ∉ b := fun hmem =>
  (Buttons.known_iff (by decide)).1 (FlagSet.known_of_mem hmem) rfl

/-- The words without bit 11 are just those that buttons are made of. -/
theorem Buttons.exists_bits_iff {w : Half} :
    (∃ b : Buttons, b.bits = w) ↔ w.getLsbD 11 = false := by
  constructor
  · rintro ⟨b, rfl⟩
    exact Bool.eq_false_iff.2 (Buttons.not_mem_eleven b)
  · intro hclear
    refine ⟨FlagSet.truncate w, BitVec.eq_of_getLsbD_eq fun i hi => ?_⟩
    rw [FlagSet.bits_truncate, BitVec.getLsbD_and]
    by_cases h : i = 11
    · rw [h, hclear, Bool.false_and]
    · rw [(Buttons.known_iff hi).2 h, Bool.and_true]

/-! ## When two messages show the same state -/

/-- Two 16-bit quantities are equal if both their bytes are. -/
theorem halfAt_eq_iff {b c : List Byte} {i : Nat} :
    halfAt b i = halfAt c i ↔
      byteAt b i = byteAt c i ∧ byteAt b (i + 1) = byteAt c (i + 1) := by
  constructor
  · intro h
    have hlow := congrArg (BitVec.extractLsb' 0 8) h
    have hhigh := congrArg (BitVec.extractLsb' 8 8) h
    unfold halfAt at hlow hhigh
    rw [BitVec.extractLsb'_append_eq_right,
      BitVec.extractLsb'_append_eq_right] at hlow
    rw [BitVec.extractLsb'_append_eq_left,
      BitVec.extractLsb'_append_eq_left] at hhigh
    exact ⟨hlow, hhigh⟩
  · rintro ⟨hlow, hhigh⟩
    rw [halfAt, halfAt, hlow, hhigh]

namespace PadState

/-- Two messages show the same buttons if they agree on byte 2, and on byte 3
except its bit 3. -/
theorem buttons_eq_iff {b c : List Byte} :
    (FlagSet.truncate (halfAt b 2) : Buttons) =
        FlagSet.truncate (halfAt c 2) ↔
      byteAt b 2 = byteAt c 2 ∧
        ∀ k, k ≠ 3 → (byteAt b 3).getLsbD k = (byteAt c 3).getLsbD k := by
  have hlow (b : List Byte) {i : Nat} (h : i < 8) :
      (halfAt b 2).getLsbD i = (byteAt b 2).getLsbD i := by
    rw [halfAt, BitVec.getLsbD_append, if_pos h]
  have hhigh (b : List Byte) (k : Nat) :
      (halfAt b 2).getLsbD (k + 8) = (byteAt b 3).getLsbD k := by
    rw [halfAt, BitVec.getLsbD_append, if_neg (by omega), Nat.add_sub_cancel]
  rw [FlagSet.truncate_eq_iff]
  constructor
  · intro h
    refine ⟨BitVec.eq_of_getLsbD_eq fun i hi => ?_, fun k hk => ?_⟩
    · rw [← hlow b hi, ← hlow c hi]
      exact h i ((Buttons.known_iff (by omega)).2 (by omega))
    · by_cases hk8 : k < 8
      · rw [← hhigh b, ← hhigh c]
        exact h (k + 8) ((Buttons.known_iff (by omega)).2 (by omega))
      · rw [BitVec.getLsbD_of_ge _ _ (by omega),
          BitVec.getLsbD_of_ge _ _ (by omega)]
  · rintro ⟨hbyte, hbits⟩ i hi
    have hi16 : i < 16 := BitVec.lt_of_getLsbD hi
    by_cases h : i < 8
    · rw [hlow b h, hlow c h, hbyte]
    · obtain ⟨k, rfl⟩ : ∃ k, i = k + 8 := ⟨i - 8, by omega⟩
      have hne := (Buttons.known_iff hi16).1 hi
      rw [hhigh, hhigh]
      exact hbits k (by omega)

/-- Two messages show the same state if they agree on bytes 2 and 4 to 13, and
on byte 3 except its bit 3. -/
theorem view_eq_iff {b c : List Byte} :
    view b = view c ↔
      (∀ i, i = 2 ∨ 4 ≤ i ∧ i ≤ 13 → byteAt b i = byteAt c i) ∧
        ∀ k, k ≠ 3 → (byteAt b 3).getLsbD k = (byteAt c 3).getLsbD k := by
  simp only [view, PadState.mk.injEq, Stick.mk.injEq, Int16.ofUInt16.injEq,
    UInt16.ofBitVec.injEq, buttons_eq_iff, halfAt_eq_iff]
  constructor
  · rintro ⟨⟨h2, h3⟩, h4, h5, ⟨⟨h6, h7⟩, h8, h9⟩, ⟨h10, h11⟩, h12, h13⟩
    refine ⟨fun i hi => ?_, h3⟩
    have hcases : i = 2 ∨ i = 4 ∨ i = 5 ∨ i = 6 ∨ i = 7 ∨ i = 8 ∨ i = 9 ∨
        i = 10 ∨ i = 11 ∨ i = 12 ∨ i = 13 := by omega
    rcases hcases with
      rfl | rfl | rfl | rfl | rfl | rfl | rfl | rfl | rfl | rfl | rfl <;>
      assumption
  · rintro ⟨hbytes, h3⟩
    exact ⟨⟨hbytes 2 (by decide), h3⟩, hbytes 4 (by decide),
      hbytes 5 (by decide),
      ⟨⟨hbytes 6 (by decide), hbytes 7 (by decide)⟩, hbytes 8 (by decide),
        hbytes 9 (by decide)⟩,
      ⟨hbytes 10 (by decide), hbytes 11 (by decide)⟩, hbytes 12 (by decide),
      hbytes 13 (by decide)⟩

/-! ## Messages that are reports -/

/-- A message is an input report if it has all of the twenty bytes, and its
first two bytes say that it is one. -/
def IsReport (message : List Byte) : Prop :=
  20 ≤ message.length ∧ byteAt message 0 = 0 ∧
    20 ≤ (byteAt message 1).toNat

instance (message : List Byte) : Decidable (IsReport message) :=
  inferInstanceAs (Decidable (_ ∧ _ ∧ _))

theorem ofReport?_of_isReport {message : List Byte} (h : IsReport message) :
    ofReport? message = some (view message) :=
  ofReport?_eq_some_iff.2 ⟨h, rfl⟩

theorem ofReport?_of_not_isReport {message : List Byte}
    (h : ¬ IsReport message) : ofReport? message = none := by
  rw [Option.eq_none_iff_forall_ne_some]
  intro s hs
  exact h (ofReport?_eq_some_iff.1 hs).1

theorem isSome_ofReport?_iff {message : List Byte} :
    (ofReport? message).isSome ↔ IsReport message := by
  by_cases h : IsReport message
  · simp [ofReport?_of_isReport h, h]
  · simp [ofReport?_of_not_isReport h, h]

/-- What is behind the twenty bytes does not count. -/
theorem ofReport?_take (message : List Byte) :
    ofReport? (message.take 20) = ofReport? message := by
  have hbyte (i : Nat) (h : i < 20) :
      byteAt (message.take 20) i = byteAt message i := by
    rw [byteAt, byteAt, List.getElem?_take_of_lt h]
  have hreport : IsReport (message.take 20) ↔ IsReport message := by
    have hlength : 20 ≤ (message.take 20).length ↔ 20 ≤ message.length := by
      rw [List.length_take]
      omega
    unfold IsReport
    rw [hbyte 0 (by decide), hbyte 1 (by decide), hlength]
  have hview : view (message.take 20) = view message :=
    view_eq_iff.2 ⟨fun i hi => hbyte i (by omega),
      fun k _ => by rw [hbyte 3 (by decide)]⟩
  by_cases h : IsReport message
  · rw [ofReport?_of_isReport (hreport.2 h), ofReport?_of_isReport h, hview]
  · rw [ofReport?_of_not_isReport (mt hreport.1 h),
      ofReport?_of_not_isReport h]

/-! ## Writing a report -/

/-- The input report of a state: kind and length, buttons, triggers and sticks,
every 16-bit quantity with its low byte first, and six bytes of padding. -/
def report (s : PadState) : List Byte :=
  [0x00, 20] ++ littleEndian 2 s.buttons.bits ++
    [s.leftTrigger, s.rightTrigger] ++
    littleEndian 2 s.leftStick.x.toBitVec ++
    littleEndian 2 s.leftStick.y.toBitVec ++
    littleEndian 2 s.rightStick.x.toBitVec ++
    littleEndian 2 s.rightStick.y.toBitVec ++ List.replicate 6 0

theorem length_report (s : PadState) : s.report.length = 20 := rfl

/-- A report shows the state it was written from. -/
theorem view_report (s : PadState) : view s.report = s := by
  have hbuttons : halfAt s.report 2 = s.buttons.bits := high_append_low _
  have hleftX : halfAt s.report 6 = s.leftStick.x.toBitVec :=
    high_append_low _
  have hleftY : halfAt s.report 8 = s.leftStick.y.toBitVec :=
    high_append_low _
  have hrightX : halfAt s.report 10 = s.rightStick.x.toBitVec :=
    high_append_low _
  have hrightY : halfAt s.report 12 = s.rightStick.y.toBitVec :=
    high_append_low _
  have hset : FlagSet.truncate s.buttons.bits = s.buttons :=
    FlagSet.ext s.buttons.bits_and_known
  unfold view
  rw [hbuttons, hleftX, hleftY, hrightX, hrightY, hset]
  rfl

/-- A state is read from the report it is written into. -/
theorem ofReport?_report (s : PadState) : ofReport? s.report = some s := by
  have hreport : IsReport s.report :=
    ⟨Nat.le_of_eq (length_report s).symm, rfl, Nat.le_refl 20⟩
  rw [ofReport?_of_isReport hreport, view_report]

/-- A message is read as a report just if it has twenty bytes, the first is zero
and the second is at least twenty.  No byte behind the first twenty counts, and
of two messages that are read the states are the same just if bytes 2 and 4 to
13 are, and byte 3 except its bit 3.  Every state is read from the report it is
written into; the buttons of the states are all the words without bit 11. -/
theorem report_exact :
    (∀ message : List Byte, (ofReport? message).isSome ↔
      20 ≤ message.length ∧ byteAt message 0 = 0 ∧
        20 ≤ (byteAt message 1).toNat) ∧
    (∀ message : List Byte,
      ofReport? (message.take 20) = ofReport? message) ∧
    (∀ (b c : List Byte) (s t : PadState),
      ofReport? b = some s → ofReport? c = some t →
        (s = t ↔
          (∀ i, i = 2 ∨ 4 ≤ i ∧ i ≤ 13 → byteAt b i = byteAt c i) ∧
            ∀ k, k ≠ 3 →
              (byteAt b 3).getLsbD k = (byteAt c 3).getLsbD k)) ∧
    (∀ s : PadState, s.report.length = 20 ∧ ofReport? s.report = some s) ∧
    ∀ w : Half, w.getLsbD 11 = false ↔ ∃ s : PadState, s.buttons.bits = w := by
  refine ⟨fun _ => isSome_ofReport?_iff, ofReport?_take, ?same,
    fun s => ⟨length_report s, ofReport?_report s⟩, ?buttons⟩
  case same =>
    intro b c s t hs ht
    rw [(ofReport?_eq_some_iff.1 hs).2, (ofReport?_eq_some_iff.1 ht).2]
    exact view_eq_iff
  case buttons =>
    intro w
    rw [← Buttons.exists_bits_iff]
    constructor
    · rintro ⟨b, hb⟩
      exact ⟨{ buttons := b }, hb⟩
    · rintro ⟨s, hs⟩
      exact ⟨s.buttons, hs⟩

/-- A longer report with bit 11 of the buttons set, with other padding and with
another length is read as the same state. -/
theorem padded_report_same :
    let s : PadState :=
      { buttons := FlagSet.truncate 0x1001, leftTrigger := 0xFF,
        leftStick := { x := -32768, y := 1234 },
        rightStick := { x := 32767, y := -1 } }
    let padded : List Byte :=
      [0x00, 0x20, 0x01, 0x18, 0xFF, 0x00, 0x00, 0x80, 0xD2, 0x04, 0xFF, 0x7F,
        0xFF, 0xFF, 1, 2, 3, 4, 5, 6, 7]
    ofReport? padded = some s := by
  intro s padded
  obtain ⟨hreads, -, hsame, hwritten, -⟩ := report_exact
  obtain ⟨t, ht⟩ := Option.isSome_iff_exists.1
    ((hreads padded).2 (by decide))
  have hst : s = t := by
    refine (hsame s.report padded s t (hwritten s).2 ht).2 ⟨?_, ?_⟩
    · have hbytes : ∀ i < 14, i = 2 ∨ 4 ≤ i ∧ i ≤ 13 →
          byteAt s.report i = byteAt padded i := by decide
      exact fun i hi => hbytes i (by omega) hi
    · have hbits : ∀ k < 8, k ≠ 3 →
          (byteAt s.report 3).getLsbD k = (byteAt padded 3).getLsbD k := by
        decide
      intro k hk
      by_cases hk8 : k < 8
      · exact hbits k hk8 hk
      · rw [BitVec.getLsbD_of_ge _ _ (by omega),
          BitVec.getLsbD_of_ge _ _ (by omega)]
  rw [ht, hst]

end PadState

end UsbHost
