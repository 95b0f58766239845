import UsbHost.Wire.Descriptor
import UsbHost.Wire.Setup

/-!
# Fields of the requests

A request is made from its fields, and every field reads back; the three fields
of the first byte fill it, and the other bytes hold a field or half of one.

The recipient is the one field with bit patterns that are not canonical: of its
32 codes, 4 to 30 read as the reserved recipient, whose own code is 31.  A
request that is made anew from what its fields read as differs from itself in
just this.

## Main results

* `bytes_eq` — the eight bytes of a request.
* `bytes_ofBytes` — the bytes a request is read from are its bytes.
* `ofFields_get` — every field of a request reads back.
* `typeByte_ofFields` — the first byte of a request.
* `bytes_setConfiguration` — the request that selects a configuration.
* `bytes_rebuilt` — a request made anew from what its fields read as.
* `codec_lawful` — bytes, fields and requests in every direction.
-/

namespace UsbHost

/-- Codes 4 to 30 are written back as 31, all others as they are. -/
theorem Recipient.encode_decode (b : BitVec 5) :
    Recipient.coding.encode (Recipient.coding.decode b) =
      if 4 ≤ b.toNat ∧ b.toNat ≤ 30 then 0x1F else b := by
  revert b
  decide

namespace SetupPacket

/-- The bytes of a request are those of its fields, each of which has its least
significant byte first. -/
theorem bytes_eq (p : SetupPacket) :
    p.bytes =
      [p.typeByte, SetupPacket.request.get p,
        (SetupPacket.value.get p).extractLsb' 0 8,
        (SetupPacket.value.get p).extractLsb' 8 8,
        (SetupPacket.index.get p).extractLsb' 0 8,
        (SetupPacket.index.get p).extractLsb' 8 8,
        (SetupPacket.length.get p).extractLsb' 0 8,
        (SetupPacket.length.get p).extractLsb' 8 8] := by
  have hhalf (lo k : Nat) (hk : k + 8 ≤ 16) :
      p.raw.extractLsb' (lo + k) 8 =
        (p.raw.extractLsb' lo 16).extractLsb' k 8 :=
    (extract_extract p.raw hk).symm
  have hlow (lo : Nat) := hhalf lo 0 (by decide)
  have hhigh (lo : Nat) := hhalf lo 8 (by decide)
  show [p.raw.extractLsb' 0 8, p.raw.extractLsb' 8 8,
    p.raw.extractLsb' (16 + 0) 8, p.raw.extractLsb' (16 + 8) 8,
    p.raw.extractLsb' (32 + 0) 8, p.raw.extractLsb' (32 + 8) 8,
    p.raw.extractLsb' (48 + 0) 8, p.raw.extractLsb' (48 + 8) 8] = _
  rw [hlow 16, hhigh 16, hlow 32, hhigh 32, hlow 48, hhigh 48]
  rfl

section OfFields

variable (r : Recipient) (t : RequestType) (d : Direction) (request : Byte)
  (value index length : Half)

/-- The fields of a request read back. -/
theorem ofFields_get :
    let p := ofFields r t d request value index length
    SetupPacket.recipient.get p = r ∧ SetupPacket.requestType.get p = t ∧
      SetupPacket.direction.get p = d ∧
      SetupPacket.request.get p = request ∧
      SetupPacket.value.get p = value ∧ SetupPacket.index.get p = index ∧
      SetupPacket.length.get p = length := by
  simp (disch := decide) only [ofFields, BitField.get_set_of_disjoint,
    BitField.get_set, and_self]

/-- Direction, type and recipient are the first byte from its top down. -/
theorem typeByte_ofFields :
    (ofFields r t d request value index length).typeByte =
      Direction.coding.encode d ++ RequestType.coding.encode t ++
        Recipient.coding.encode r := by
  apply BitVec.eq_of_getLsbD_eq
  intro i hi
  have hraw : ∀ p : SetupPacket, p.raw = Packed.raw p := fun _ => rfl
  rw [BitVec.getLsbD_append, BitVec.getLsbD_append, typeByte,
    BitVec.getLsbD_extractLsb', Nat.zero_add, decide_eq_true hi, Bool.true_and,
    hraw]
  unfold ofFields
  by_cases hr : i < 5
  · have hc : SetupPacket.recipient.Covers i := ⟨Nat.zero_le i, hr⟩
    rw [BitField.getLsbD_set, if_pos hc, if_pos hr]
    rfl
  rw [if_neg hr, BitField.getLsbD_set, if_neg fun h => hr h.2]
  by_cases ht : i < 7
  · have hc : SetupPacket.requestType.Covers i := ⟨Nat.le_of_not_lt hr, ht⟩
    have ht' : i - 5 < 2 := by omega
    rw [BitField.getLsbD_set, if_pos hc, if_pos ht']
    rfl
  · have hc : SetupPacket.direction.Covers i := ⟨Nat.le_of_not_lt ht, hi⟩
    have ht' : ¬ i - 5 < 2 := by omega
    have hseven : i - 5 - 2 = i - 7 := by omega
    rw [BitField.getLsbD_set, if_neg fun h => ht h.2, BitField.getLsbD_set,
      if_pos hc, if_neg ht', hseven]
    rfl

end OfFields

/-- The request that selects a configuration has its value in the third byte. -/
theorem bytes_setConfiguration (v : Byte) :
    (setConfiguration v).bytes = [0x00, 0x09, v, 0, 0, 0, 0, 0] := by
  have hlow : (v.setWidth 16).extractLsb' 0 8 = v := by
    apply BitVec.eq_of_getLsbD_eq
    intro i hi
    have hlt : i < 16 := by omega
    simp [hi, hlt]
  have hhigh : (v.setWidth 16).extractLsb' 8 8 = 0 := by
    apply BitVec.eq_of_getLsbD_eq
    intro i hi
    simp
  obtain ⟨-, -, -, hrequest, hvalue, hindex, hlength⟩ :=
    ofFields_get .device .standard .toDevice setConfigurationCode
      (v.setWidth 16) 0 0
  rw [setConfiguration, bytes_eq, typeByte_ofFields, hrequest, hvalue, hindex,
    hlength, hlow, hhigh]
  rfl

/-! ## The fields in the bytes -/

/-- The eight bytes that a request is read from are its bytes. -/
theorem bytes_ofBytes {b : List Byte} (h : b.length = 8) :
    (ofBytes b).bytes = b := by
  have hbytes : littleEndian 8 (ofLittleEndian 64 b) =
      b ++ List.replicate (8 - b.length) 0 :=
    littleEndian_ofLittleEndian (Nat.le_of_eq h) (by decide)
  rw [h] at hbytes
  exact hbytes.trans (List.append_nil b)

/-- Direction, type and recipient in the first byte, from its top down. -/
theorem typeByte_fields (p : SetupPacket) :
    SetupPacket.direction.get p =
        Direction.coding.decode (p.typeByte.extractLsb' 7 1) ∧
      SetupPacket.requestType.get p =
        RequestType.coding.decode (p.typeByte.extractLsb' 5 2) ∧
      SetupPacket.recipient.get p =
        Recipient.coding.decode (p.typeByte.extractLsb' 0 5) := by
  have hslice (k len : Nat) (h : k + len ≤ 8) :
      p.typeByte.extractLsb' k len = p.raw.extractLsb' k len := by
    rw [typeByte, extract_extract p.raw h, Nat.zero_add]
  rw [hslice 7 1 (by decide), hslice 5 2 (by decide), hslice 0 5 (by decide)]
  exact ⟨rfl, rfl, rfl⟩

/-- The fields of a request in the bytes it is read from. -/
theorem ofBytes_fields (b : List Byte) :
    let p := ofBytes b
    p.typeByte = byteAt b 0 ∧ SetupPacket.request.get p = byteAt b 1 ∧
      SetupPacket.value.get p = halfAt b 2 ∧
      SetupPacket.index.get p = halfAt b 4 ∧
      SetupPacket.length.get p = halfAt b 6 := by
  intro p
  have hbyte (i : Nat) (hi : i < 8) :
      p.raw.extractLsb' (8 * i) 8 = byteAt b i :=
    extract_ofLittleEndian b (by omega)
  have hhalf (i : Nat) (hi : i + 1 < 8) :
      p.raw.extractLsb' (8 * i) 16 = halfAt b i := by
    rw [halfAt, ← hbyte i (by omega), ← hbyte (i + 1) hi]
    exact (BitVec.extractLsb'_append_extractLsb'_eq_extractLsb'
      (Nat.mul_succ 8 i)).symm
  exact ⟨hbyte 0 (by decide), hbyte 1 (by decide), hhalf 2 (by decide),
    hhalf 4 (by decide), hhalf 6 (by decide)⟩

/-! ## The fields as one family -/

/-- The fields of a request, from bit 0 up. -/
inductive Field where
  | recipient
  | requestType
  | direction
  | request
  | value
  | index
  | length
deriving DecidableEq

/-- What a field holds. -/
def Field.Value : Field → Type
  | .recipient => Recipient
  | .requestType => RequestType
  | .direction => Direction
  | .request => Byte
  | .value => Half
  | .index => Half
  | .length => Half

/-- Where a field stands, and how its bits are read. -/
def Field.bits : (f : Field) → BitField SetupPacket f.Value
  | .recipient => SetupPacket.recipient
  | .requestType => SetupPacket.requestType
  | .direction => SetupPacket.direction
  | .request => SetupPacket.request
  | .value => SetupPacket.value
  | .index => SetupPacket.index
  | .length => SetupPacket.length

/-- Two fields share no bit. -/
theorem Field.disjoint {f g : Field} : f ≠ g → f.bits.Disjoint g.bits := by
  cases f <;> cases g <;> decide

/-- What every field of a request reads as. -/
def fields (p : SetupPacket) (f : Field) : f.Value := f.bits.get p

/-- The request with the given value in every field. -/
def ofValues (values : (f : Field) → f.Value) : SetupPacket :=
  ofFields (values .recipient) (values .requestType) (values .direction)
    (values .request) (values .value) (values .index) (values .length)

/-- A request has the fields it is made with. -/
theorem fields_ofValues (values : (f : Field) → f.Value) :
    (ofValues values).fields = values := by
  obtain ⟨hrecipient, htype, hdirection, hrequest, hvalue, hindex, hlength⟩ :=
    ofFields_get (values .recipient) (values .requestType) (values .direction)
      (values .request) (values .value) (values .index) (values .length)
  funext f
  cases f with
  | recipient => exact hrecipient
  | requestType => exact htype
  | direction => exact hdirection
  | request => exact hrequest
  | value => exact hvalue
  | index => exact hindex
  | length => exact hlength

/-! ## Making a request anew -/

/-- The request that is made from what the fields of `p` read as. -/
def rebuilt (p : SetupPacket) : SetupPacket := ofValues p.fields

/-- The code of the recipient. -/
def recipientCode (p : SetupPacket) : Nat :=
  (p.typeByte.extractLsb' 0 5).toNat

/-- In a first byte made anew nothing changes but a recipient whose code is not
the canonical one, and this becomes all ones. -/
theorem typeByte_rebuilt (p : SetupPacket) :
    p.rebuilt.typeByte =
      if 4 ≤ p.recipientCode ∧ p.recipientCode ≤ 30 then p.typeByte ||| 0x1F
      else p.typeByte := by
  have hsame (b : Byte) : b.extractLsb' 7 1 ++ b.extractLsb' 5 2 ++
      b.extractLsb' 0 5 = b := by
    revert b
    decide +kernel
  have hones (b : Byte) : b.extractLsb' 7 1 ++ b.extractLsb' 5 2 ++
      (0x1F : BitVec 5) = b ||| 0x1F := by
    revert b
    decide +kernel
  obtain ⟨hdirection, htype, hrecipient⟩ := p.typeByte_fields
  have hmade : p.rebuilt.typeByte =
      Direction.coding.encode (SetupPacket.direction.get p) ++
        RequestType.coding.encode (SetupPacket.requestType.get p) ++
        Recipient.coding.encode (SetupPacket.recipient.get p) :=
    typeByte_ofFields ..
  rw [hmade, hdirection, htype, hrecipient, Direction.coding_exact,
    RequestType.coding_exact, Recipient.encode_decode]
  unfold recipientCode
  split
  · exact hones _
  · exact hsame _

/-- In a request made anew no byte changes but the first. -/
theorem bytes_rebuilt (p : SetupPacket) :
    p.rebuilt.bytes = p.rebuilt.typeByte :: p.bytes.tail := by
  have hfields : p.rebuilt.fields = p.fields := fields_ofValues p.fields
  have hrequest : SetupPacket.request.get p.rebuilt =
      SetupPacket.request.get p := congrFun hfields .request
  have hvalue : SetupPacket.value.get p.rebuilt = SetupPacket.value.get p :=
    congrFun hfields .value
  have hindex : SetupPacket.index.get p.rebuilt = SetupPacket.index.get p :=
    congrFun hfields .index
  have hlength : SetupPacket.length.get p.rebuilt = SetupPacket.length.get p :=
    congrFun hfields .length
  rw [bytes_eq, bytes_eq p, hrequest, hvalue, hindex, hlength]
  rfl

/-- A request made anew has its own bytes unless its recipient's code is not
the canonical one. -/
theorem bytes_rebuilt_eq_iff (p : SetupPacket) :
    p.rebuilt.bytes = p.bytes ↔
      ¬ (4 ≤ p.recipientCode ∧ p.recipientCode ≤ 30) := by
  have hones (b : Byte) (h : b ||| 0x1F = b) :
      (b.extractLsb' 0 5).toNat = 31 := by
    revert b
    decide +kernel
  have hfirst : p.bytes = p.typeByte :: p.bytes.tail := by
    rw [bytes_eq]
    rfl
  rw [bytes_rebuilt, typeByte_rebuilt]
  split
  next hforeign =>
    refine iff_of_false (fun heq => ?_) (fun hnot => hnot hforeign)
    rw [hfirst] at heq
    have hcode : p.recipientCode = 31 := hones _ (List.cons.inj heq).1
    omega
  next hcanonical => exact iff_of_true hfirst.symm hcanonical

/-! ## The codec -/

/-- A request and its bytes stand for each other: eight bytes read as a request
are its bytes, and a request read from its bytes is itself.  The fields are the
bits of the bytes: direction, type and recipient from the top of byte 0 down,
the request code in byte 1, and value, index and length as little-endian pairs.
A request has the fields it is made with; a write to a field is read back, shows
in no other field, and keeps all bits outside.  And a request made anew from
what its fields read as has its own bytes unless the recipient's code is one of
4 to 30; then just the five bits of the recipient become ones. -/
theorem codec_lawful :
    (∀ b : List Byte, b.length = 8 →
      let p := ofBytes b
      p.bytes = b ∧
        SetupPacket.direction.get p =
          Direction.coding.decode ((byteAt b 0).extractLsb' 7 1) ∧
        SetupPacket.requestType.get p =
          RequestType.coding.decode ((byteAt b 0).extractLsb' 5 2) ∧
        SetupPacket.recipient.get p =
          Recipient.coding.decode ((byteAt b 0).extractLsb' 0 5) ∧
        SetupPacket.request.get p = byteAt b 1 ∧
        SetupPacket.value.get p = halfAt b 2 ∧
        SetupPacket.index.get p = halfAt b 4 ∧
        SetupPacket.length.get p = halfAt b 6) ∧
    (∀ p : SetupPacket, ofBytes p.bytes = p) ∧
    (∀ (values : (f : Field) → f.Value) (f : Field),
      (ofValues values).fields f = values f) ∧
    (∀ (f : Field) (a : f.Value) (p : SetupPacket),
      (f.bits.set a p).fields f = a ∧
        (∀ g, g ≠ f → (f.bits.set a p).fields g = p.fields g) ∧
        ∀ i, ¬ f.bits.Covers i →
          (f.bits.set a p).raw.getLsbD i = p.raw.getLsbD i) ∧
    ∀ p : SetupPacket,
      (p.rebuilt.bytes = p.bytes ↔
          ¬ (4 ≤ p.recipientCode ∧ p.recipientCode ≤ 30)) ∧
        (4 ≤ p.recipientCode ∧ p.recipientCode ≤ 30 →
          p.rebuilt.bytes = (p.typeByte ||| 0x1F) :: p.bytes.tail) := by
  refine ⟨?bytes, ofBytes_bytes, ?made, ?written, ?anew⟩
  case bytes =>
    intro b hb p
    obtain ⟨htype, hrest⟩ := ofBytes_fields b
    obtain ⟨hd, ht, hr⟩ := p.typeByte_fields
    rw [htype] at hd ht hr
    exact ⟨bytes_ofBytes hb, hd, ht, hr, hrest⟩
  case made => exact fun values f => congrFun (fields_ofValues values) f
  case written =>
    intro f a p
    refine ⟨f.bits.get_set a p, ?_, ?_⟩
    · intro g hne
      exact g.bits.get_set_of_disjoint f.bits (Field.disjoint hne) a p
    · intro i hout
      exact f.bits.raw_set_outside a p hout
  case anew =>
    intro p
    refine ⟨bytes_rebuilt_eq_iff p, fun hforeign => ?_⟩
    rw [bytes_rebuilt, typeByte_rebuilt, if_pos hforeign]

/-- A request to recipient 7 comes back as one to recipient 31, with direction,
type and all other bytes kept; a length that is written to it leaves bit 0, and
its value is still read. -/
theorem foreign_recipient_rebuilt :
    let b : List Byte := [0xA7, 0x06, 0x34, 0x12, 0, 0, 0x12, 0]
    let p := ofBytes b
    p.rebuilt.bytes = [0xBF, 0x06, 0x34, 0x12, 0, 0, 0x12, 0] ∧
      SetupPacket.value.get p = 0x1234 ∧
      (SetupPacket.length.set 0xFFFF p).fields .value = (0x1234 : Half) ∧
      (SetupPacket.length.set 0xFFFF p).raw.getLsbD 0 = true := by
  intro b p
  obtain ⟨hread, -, -, hwritten, hanew⟩ := codec_lawful
  obtain ⟨-, hother, houtside⟩ := hwritten .length (0xFFFF : Half) p
  have hvalue : SetupPacket.value.get p = 0x1234 :=
    (hread b rfl).2.2.2.2.2.1.trans (by decide)
  refine ⟨((hanew p).2 (by decide)).trans (by decide), hvalue, ?_, ?_⟩
  · exact (hother .value nofun).trans hvalue
  · exact (houtside 0 (by decide)).trans (by decide)

end SetupPacket

end UsbHost
