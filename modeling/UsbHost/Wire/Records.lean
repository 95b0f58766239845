import UsbHost.Wire.Descriptor

/-!
# Records of a configuration

A configuration is a sequence of records, each of which begins with its own
length and the code of its kind.  The walk ends at a record that is shorter
than those two bytes or longer than what is left.

## Main results

* `records_eq` — the records of a byte string are its first record, if it has
  one, and those of the rest.
-/

namespace UsbHost

/-- One length-prefixed record, its two leading bytes included. -/
structure Record where
  kind : DescriptorType
  bytes : List Byte
deriving DecidableEq

/-- The first record and what follows it. -/
def nextRecord? : List Byte → Option (Record × List Byte)
  | [] => none
  | first :: rest =>
    let bytes := first :: rest
    let size := first.toNat
    if 2 ≤ size ∧ size ≤ bytes.length then
      some (⟨DescriptorType.coding.decode (byteAt bytes 1), bytes.take size⟩,
        bytes.drop size)
    else none

/-- One step of a walk: the record at the front of what is left, if there is
one, and what is left after it.  A walk that finds no record has nothing left to
find one in. -/
def stepRecord (left : List Byte) : Option Record × List Byte :=
  match nextRecord? left with
  | some (record, rest) => (some record, rest)
  | none => (none, [])

/-- At most `count` records from the front. -/
def takeRecords : Nat → List Byte → List Record
  | 0, _ => []
  | count + 1, bytes =>
    match stepRecord bytes with
    | (none, _) => []
    | (some record, rest) => record :: takeRecords count rest

/-- All records up to the first one that is malformed. -/
def records (bytes : List Byte) : List Record := takeRecords bytes.length bytes

theorem length_of_nextRecord? {bytes rest : List Byte} {record : Record}
    (h : nextRecord? bytes = some (record, rest)) :
    rest.length + 2 ≤ bytes.length := by
  cases bytes with
  | nil => simp [nextRecord?] at h
  | cons first tail =>
    simp only [nextRecord?] at h
    split at h
    next hsize =>
      simp only [Option.some.injEq, Prod.mk.injEq] at h
      rw [← h.2, List.length_drop]
      omega
    next => simp at h

theorem takeRecords_of_length_le {count : Nat} {bytes : List Byte}
    (h : bytes.length ≤ count) : takeRecords count bytes = records bytes := by
  suffices ∀ n (b : List Byte) c d, b.length ≤ n → b.length ≤ c →
      b.length ≤ d → takeRecords c b = takeRecords d b from
    this _ _ _ _ (Nat.le_refl _) h (Nat.le_refl _)
  intro n
  induction n with
  | zero =>
    intro b c d hn _ _
    have hb : b = [] := List.length_eq_zero_iff.1 (by omega)
    subst hb
    cases c <;> cases d <;> rfl
  | succ n ih =>
    intro b c d hn hc hd
    cases hr : nextRecord? b with
    | none => cases c <;> cases d <;> simp [takeRecords, stepRecord, hr]
    | some p =>
      obtain ⟨record, rest⟩ := p
      have hl := length_of_nextRecord? hr
      cases c with
      | zero => omega
      | succ c =>
        cases d with
        | zero => omega
        | succ d =>
          simp only [takeRecords, stepRecord, hr]
          rw [ih rest c d (by omega) (by omega) (by omega)]

/-- The records of a byte string are its first record, if it has one, and
those of the rest. -/
theorem records_eq (bytes : List Byte) :
    records bytes =
      match nextRecord? bytes with
      | none => []
      | some (record, rest) => record :: records rest := by
  rw [← takeRecords_of_length_le (Nat.le_succ bytes.length), takeRecords,
    stepRecord]
  cases h : nextRecord? bytes with
  | none => rfl
  | some found =>
    obtain ⟨record, rest⟩ := found
    have := length_of_nextRecord? h
    simp only
    rw [takeRecords_of_length_le (by omega)]

/-! ## The endpoint to poll -/

/-- An interrupt-IN endpoint and the interface it belongs to. -/
structure HidEndpoint where
  number : Byte
  maxPacketSize : Half
  interface : Byte
deriving DecidableEq

namespace HidEndpoint

/-- The first interrupt-IN endpoint among the records, where `interface` is the
number of the interface whose records come first. -/
def ofRecords? (interface : Byte) : List Record → Option HidEndpoint
  | [] => none
  | r :: rest =>
    match r.kind with
    | .interface =>
      match InterfaceDescriptor.layout.readFront? r.bytes with
      | some d => ofRecords? d.number rest
      | none => ofRecords? interface rest
    | .endpoint =>
      match EndpointDescriptor.layout.readFront? r.bytes with
      | some d =>
        if d.isInterruptIn then
          some
            { number := (EndpointAddress.number.get d.address).setWidth 8
              maxPacketSize := d.packetSize
              interface }
        else ofRecords? interface rest
      | none => ofRecords? interface rest
    | _ => ofRecords? interface rest

/-- The first interrupt-IN endpoint of a configuration.  An endpoint before
any interface counts to interface 0. -/
def find? (configuration : List Byte) : Option HidEndpoint :=
  ofRecords? 0 (records configuration)

end HidEndpoint

end UsbHost
