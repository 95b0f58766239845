/-!
# Words, bytes and their order

Registers are 32 bits wide, descriptors and reports are byte strings, and every
multi-byte quantity on the wire is little-endian: byte `i` holds bits
`8 * i` to `8 * i + 7`.

## Main results

* `getLsbD_ofLittleEndian` — bit `i` of an assembled word is bit `i % 8` of
  byte `i / 8`, and absent bytes count as zero.
* `ofLittleEndian_littleEndian` — splitting a word into enough bytes and
  assembling them again is the identity.
* `littleEndian_ofLittleEndian` — splitting an assembled word gives back its
  bytes, with zeros behind them.
-/

namespace UsbHost

/-- The content of one register. -/
abbrev Word := BitVec 32

/-- A 16-bit quantity of a descriptor, a request or a report. -/
abbrev Half := BitVec 16

/-- One byte of a packet. -/
abbrev Byte := BitVec 8

/-! ## Little-endian bytes -/

/-- The low `count` bytes of `v`, least significant first. -/
def littleEndian {w : Nat} (count : Nat) (v : BitVec w) : List Byte :=
  (List.range count).map fun i => v.extractLsb' (8 * i) 8

/-- The word whose least significant byte comes first; bytes that do not fit
are dropped and absent ones count as zero. -/
def ofLittleEndian (w : Nat) : List Byte → BitVec w
  | [] => 0
  | b :: rest => b.setWidth w ||| (ofLittleEndian w rest <<< 8)

@[simp] theorem length_littleEndian {w : Nat} (count : Nat) (v : BitVec w) :
    (littleEndian count v).length = count := by
  simp [littleEndian]

theorem getElem?_littleEndian {w : Nat} {count i : Nat} (v : BitVec w)
    (h : i < count) :
    (littleEndian count v)[i]? = some (v.extractLsb' (8 * i) 8) := by
  simp [littleEndian, h]

theorem getLsbD_ofLittleEndian (w : Nat) (bytes : List Byte) (i : Nat) :
    (ofLittleEndian w bytes).getLsbD i =
      (decide (i < w) && (bytes[i / 8]?.getD 0).getLsbD (i % 8)) := by
  induction bytes generalizing i with
  | nil => simp [ofLittleEndian]
  | cons b rest ih =>
    by_cases h : i < 8
    · have h0 : i / 8 = 0 := by omega
      have h1 : i % 8 = i := by omega
      simp [ofLittleEndian, h, h0, h1, BitVec.getLsbD_setWidth]
    · have h0 : i / 8 = (i - 8) / 8 + 1 := by omega
      have h1 : i % 8 = (i - 8) % 8 := by omega
      have h2 : b.getLsbD i = false := BitVec.getLsbD_of_ge _ _ (by omega)
      rw [ofLittleEndian, BitVec.getLsbD_or, BitVec.getLsbD_setWidth, h2,
        BitVec.getLsbD_shiftLeft, ih, h0, h1]
      by_cases hw : i < w
      · have hw' : i - 8 < w := by omega
        simp [h, hw, hw']
      · simp [hw]

theorem ofLittleEndian_littleEndian {w : Nat} (count : Nat) (v : BitVec w)
    (h : w ≤ 8 * count) : ofLittleEndian w (littleEndian count v) = v := by
  apply BitVec.eq_of_getLsbD_eq
  intro i hi
  have hc : i / 8 < count := by omega
  have h8 : i % 8 < 8 := by omega
  have hsum : 8 * (i / 8) + i % 8 = i := by omega
  rw [getLsbD_ofLittleEndian, getElem?_littleEndian v hc]
  simp [hi, h8, hsum]

/-- A byte of an assembled word is the one it was assembled from; absent bytes
are zero. -/
theorem extract_ofLittleEndian {w i : Nat} (bytes : List Byte)
    (h : 8 * i + 8 ≤ w) :
    (ofLittleEndian w bytes).extractLsb' (8 * i) 8 = bytes[i]?.getD 0 := by
  apply BitVec.eq_of_getLsbD_eq
  intro j hj
  have hdiv : (8 * i + j) / 8 = i := by omega
  have hmod : (8 * i + j) % 8 = j := by omega
  have hlt : 8 * i + j < w := by omega
  rw [BitVec.getLsbD_extractLsb', getLsbD_ofLittleEndian, hdiv, hmod]
  simp [hj, hlt]

theorem littleEndian_ofLittleEndian {w count : Nat} {bytes : List Byte}
    (hcount : bytes.length ≤ count) (hw : 8 * count ≤ w) :
    littleEndian count (ofLittleEndian w bytes) =
      bytes ++ List.replicate (count - bytes.length) 0 := by
  apply List.ext_getElem (by simp; omega)
  intro i hi _
  have hi' : i < count := by simpa using hi
  have hbyte := extract_ofLittleEndian (w := w) (i := i) bytes (by omega)
  by_cases hlt : i < bytes.length
  · simp [littleEndian, hbyte, hlt]
  · simp [littleEndian, hbyte, List.getElem_append, hlt]

/-! ## Slices -/

/-- A slice of a slice is a slice. -/
theorem extract_extract {w : Nat} (v : BitVec w) {lo width k len : Nat}
    (h : k + len ≤ width) :
    (v.extractLsb' lo width).extractLsb' k len =
      v.extractLsb' (lo + k) len := by
  apply BitVec.eq_of_getLsbD_eq
  intro i hi
  have hlt : k + i < width := by omega
  simp [hi, hlt, Nat.add_assoc]

/-- A 16-bit quantity is its high byte before its low one. -/
theorem high_append_low (v : Half) :
    v.extractLsb' 8 8 ++ v.extractLsb' 0 8 = v := by
  rw [BitVec.extractLsb'_append_extractLsb'_eq_extractLsb'
    (Nat.zero_add 8).symm]
  exact BitVec.extractLsb'_eq_self

/-! ## Hexadecimal text -/

/-- `0x` and the eight lower-case digits of a word. -/
def Word.hex (w : Word) : String := "0x" ++ w.toHex

end UsbHost
