import UsbHost.Proofs.Wire.RecordWalk

/-!
# The search for an endpoint

Of all the records of a configuration the first one counts that describes an
interrupt-IN endpoint, and of the records before it the last one that names an
interface.  Records that are too short for what they are to describe are passed
over.  What follows the endpoint does not matter, so nothing else can be found
in a configuration that has been cut off: only less.

## Main results

* `ofRecords?_cons`, `ofRecords?_skip` — the search, record by record.
* `ofRecords?_eq_some_iff` — what is found among records.
* `records_prefix` — the records of the front of a byte string.
* `first_endpoint_found` — what is found in a configuration, and in its front.
-/

namespace UsbHost

/-! ## Records that matter -/

/-- The record names an interface: it is an interface record of at least nine
bytes. -/
def Record.NamesInterface (r : Record) : Prop :=
  r.kind = .interface ∧ 9 ≤ r.bytes.length

/-- The record describes an interrupt-IN endpoint: it is an endpoint record of
at least seven bytes, bit 7 of its address says IN and the lowest two bits of
its attributes say interrupt. -/
def Record.DescribesInterruptIn (r : Record) : Prop :=
  r.kind = .endpoint ∧ 7 ≤ r.bytes.length ∧
    (byteAt r.bytes 2).getLsbD 7 = true ∧
    (byteAt r.bytes 3).extractLsb' 0 2 = 3

instance (r : Record) : Decidable r.NamesInterface :=
  inferInstanceAs (Decidable (_ ∧ _))

instance (r : Record) : Decidable r.DescribesInterruptIn :=
  inferInstanceAs (Decidable (_ ∧ _))

/-- The interface that the records after these belong to: the last one that is
named, or `interface` if none is. -/
def interfaceAfter (interface : Byte) (earlier : List Record) : Byte :=
  ((earlier.filter (·.NamesInterface)).getLast?.map (byteAt ·.bytes 2)).getD
    interface

/-- The endpoint that a record describes. -/
def Record.endpoint (r : Record) (interface : Byte) : HidEndpoint where
  number := byteAt r.bytes 2 &&& 0xF
  maxPacketSize := (byteAt r.bytes 5 ++ byteAt r.bytes 4) &&& 0x7FF
  interface

variable {interface : Byte} {r : Record} {earlier later rs : List Record}

theorem interfaceAfter_cons (interface : Byte) (r : Record)
    (earlier : List Record) :
    interfaceAfter interface (r :: earlier) =
      interfaceAfter (interfaceAfter interface [r]) earlier := by
  by_cases hr : r.NamesInterface
  · cases h : (earlier.filter (·.NamesInterface)).getLast? <;>
      simp [interfaceAfter, hr, List.getLast?_cons, h]
  · simp [interfaceAfter, hr]

/-! ## The search among records -/

namespace HidEndpoint

/-- The four bits of an endpoint's number. -/
theorem number_setWidth (a : EndpointAddress) :
    (EndpointAddress.number.get a).setWidth 8 = a.raw &&& 0xF := by
  show (a.raw.extractLsb' 0 4).setWidth 8 = a.raw &&& 0xF
  apply BitVec.eq_of_toNat_eq
  rw [BitVec.toNat_setWidth, BitVec.extractLsb'_toNat, BitVec.toNat_and,
    show (0xF : Byte).toNat = 2 ^ 4 - 1 from rfl,
    Nat.and_two_pow_sub_one_eq_mod]
  omega

/-- What the fields of an endpoint descriptor say is what two of its bytes
say. -/
theorem isInterruptIn_iff (d : EndpointDescriptor) :
    d.isInterruptIn = true ↔ d.address.raw.getLsbD 7 = true ∧
      d.attributes.raw.extractLsb' 0 2 = 3 := by
  have hdirection : EndpointAddress.direction.get d.address = .toHost ↔
      d.address.raw.getLsbD 7 = true := by
    show Direction.coding.decode (d.address.raw.extractLsb' 7 1) = _ ↔ _
    have hbit : (d.address.raw.extractLsb' 7 1).getLsbD 0 =
        d.address.raw.getLsbD 7 := by simp
    simp only [Direction.coding, hbit]
    cases d.address.raw.getLsbD 7 <;> decide
  have htype : EndpointAttributes.transferType.get d.attributes = .interrupt ↔
      d.attributes.raw.extractLsb' 0 2 = 3 := by
    show TransferType.coding.decode (d.attributes.raw.extractLsb' 0 2) = _ ↔ _
    generalize d.attributes.raw.extractLsb' 0 2 = code
    revert code
    decide
  rw [EndpointDescriptor.isInterruptIn, Bool.and_eq_true, decide_eq_true_iff,
    decide_eq_true_iff, hdirection, htype]

/-- A record either is what is looked for, or the search goes on behind it in
the interface that it names. -/
theorem ofRecords?_cons (interface : Byte) (r : Record) (rest : List Record) :
    ofRecords? interface (r :: rest) =
      if r.DescribesInterruptIn then some (r.endpoint interface)
      else ofRecords? (interfaceAfter interface [r]) rest := by
  obtain ⟨kind, bytes⟩ := r
  by_cases hinterface : kind = .interface
  · subst hinterface
    by_cases hlong : 9 ≤ bytes.length
    · simp [ofRecords?, Layout.readFront?, InterfaceDescriptor.layout, hlong,
        Record.DescribesInterruptIn, interfaceAfter, Record.NamesInterface]
    · simp [ofRecords?, Layout.readFront?, InterfaceDescriptor.layout, hlong,
        Record.DescribesInterruptIn, interfaceAfter, Record.NamesInterface]
  have hsame : interfaceAfter interface [⟨kind, bytes⟩] = interface := by
    simp [interfaceAfter, Record.NamesInterface, hinterface]
  rw [hsame]
  by_cases hendpoint : kind = .endpoint
  · subst hendpoint
    by_cases hlong : 7 ≤ bytes.length
    · simp [ofRecords?, Layout.readFront?, hlong, EndpointDescriptor.layout,
        isInterruptIn_iff, Record.DescribesInterruptIn, Record.endpoint,
        number_setWidth, EndpointDescriptor.packetSize, halfAt]
    · simp [ofRecords?, Layout.readFront?, EndpointDescriptor.layout, hlong,
        Record.DescribesInterruptIn]
  · cases kind <;> simp_all [ofRecords?, Record.DescribesInterruptIn]

/-- Records that are not what is looked for are passed over; they only tell the
interface. -/
theorem ofRecords?_skip (h : ∀ r ∈ earlier, ¬ r.DescribesInterruptIn)
    (rest : List Record) :
    ofRecords? interface (earlier ++ rest) =
      ofRecords? (interfaceAfter interface earlier) rest := by
  induction earlier generalizing interface with
  | nil => rfl
  | cons first earlier ih =>
    have hfirst : ¬ first.DescribesInterruptIn := h first List.mem_cons_self
    have hrest : ∀ r ∈ earlier, ¬ r.DescribesInterruptIn :=
      fun r hr => h r (List.mem_cons_of_mem first hr)
    rw [List.cons_append, ofRecords?_cons, if_neg hfirst, ih hrest,
      ← interfaceAfter_cons]

/-- What is found is described by the first record of its kind, and belongs to
the interface that is named last before that. -/
theorem ofRecords?_eq_some_iff {hid : HidEndpoint} :
    ofRecords? interface rs = some hid ↔
      ∃ earlier r later, rs = earlier ++ r :: later ∧
        (∀ r' ∈ earlier, ¬ r'.DescribesInterruptIn) ∧ r.DescribesInterruptIn ∧
        hid = r.endpoint (interfaceAfter interface earlier) := by
  constructor
  · intro h
    induction rs generalizing interface with
    | nil => simp [ofRecords?] at h
    | cons first rest ih =>
      rw [ofRecords?_cons] at h
      by_cases hfirst : first.DescribesInterruptIn
      · rw [if_pos hfirst, Option.some.injEq] at h
        exact ⟨[], first, rest, rfl, nofun, hfirst, h.symm⟩
      · rw [if_neg hfirst] at h
        obtain ⟨earlier, r, later, rfl, hearlier, hr, hhid⟩ := ih h
        rw [← interfaceAfter_cons] at hhid
        refine ⟨first :: earlier, r, later, rfl, ?_, hr, hhid⟩
        simpa [hfirst] using hearlier
  · rintro ⟨earlier, r, later, rfl, hearlier, hr, rfl⟩
    rw [ofRecords?_skip hearlier, ofRecords?_cons, if_pos hr]

theorem isSome_ofRecords?_iff :
    (ofRecords? interface rs).isSome = true ↔
      ∃ r ∈ rs, r.DescribesInterruptIn := by
  induction rs generalizing interface with
  | nil => simp [ofRecords?]
  | cons first rest ih =>
    rw [ofRecords?_cons]
    by_cases hfirst : first.DescribesInterruptIn
    · simp [hfirst]
    · simp [hfirst, ih]

/-- Records behind what has been found change nothing. -/
theorem ofRecords?_append {hid : HidEndpoint}
    (h : ofRecords? interface rs = some hid) (more : List Record) :
    ofRecords? interface (rs ++ more) = some hid := by
  obtain ⟨earlier, r, later, rfl, hearlier, hr, rfl⟩ :=
    ofRecords?_eq_some_iff.1 h
  refine ofRecords?_eq_some_iff.2
    ⟨earlier, r, later ++ more, ?_, hearlier, hr, rfl⟩
  rw [List.append_assoc, List.cons_append]

end HidEndpoint

/-! ## The search in a configuration -/

/-- The front of a byte string has the first records of the whole. -/
theorem records_prefix (front more : List Byte) :
    records front <+: records (front ++ more) := by
  induction front using walk_induction with
  | stop front hstop =>
    rw [records_of_unreadable hstop]
    exact List.nil_prefix
  | next r rest hr ih =>
    rw [List.append_assoc, records_append hr, records_append hr]
    exact (List.prefix_cons_inj r).2 ih

/-- Something is found in a configuration just if one of its records describes
an interrupt-IN endpoint.  It is what the first of these records says, and
belongs to the interface that is named last before it, or to interface 0.  What
is found in the front of a configuration is what is found in the whole. -/
theorem first_endpoint_found (configuration : List Byte) :
    ((HidEndpoint.find? configuration).isSome = true ↔
      ∃ r ∈ records configuration, r.DescribesInterruptIn) ∧
    (∀ hid, HidEndpoint.find? configuration = some hid ↔
      ∃ earlier r later, records configuration = earlier ++ r :: later ∧
        (∀ r' ∈ earlier, ¬ r'.DescribesInterruptIn) ∧ r.DescribesInterruptIn ∧
        hid = r.endpoint (interfaceAfter 0 earlier)) ∧
    ∀ front hid, front <+: configuration →
      HidEndpoint.find? front = some hid →
      HidEndpoint.find? configuration = some hid := by
  refine ⟨HidEndpoint.isSome_ofRecords?_iff,
    fun hid => HidEndpoint.ofRecords?_eq_some_iff, ?_⟩
  rintro front hid ⟨more, rfl⟩ hfound
  obtain ⟨others, hothers⟩ := records_prefix front more
  rw [HidEndpoint.find?, ← hothers]
  exact HidEndpoint.ofRecords?_append hfound others

/-- Two interfaces with an endpoint each, cut off within the second one. -/
theorem cut_off_endpoint_found :
    let first : List Byte :=
      [9, 4, 3, 0, 1, 3, 0, 0, 0, 7, 5, 0x81, 3, 32, 8, 4]
    let second : List Byte :=
      [9, 4, 4, 0, 1, 3, 0, 0, 0, 7, 5, 0x82, 3, 8, 0, 4]
    let configuration := first ++ second
    configuration.take 28 <+: configuration ∧
      HidEndpoint.find? (configuration.take 28) = some ⟨1, 32, 3⟩ ∧
      HidEndpoint.find? configuration = some ⟨1, 32, 3⟩ := by
  intro first second configuration
  have hfront : configuration.take 28 <+: configuration := List.take_prefix _ _
  have hfound :
      HidEndpoint.find? (configuration.take 28) = some ⟨1, 32, 3⟩ := by
    decide
  exact ⟨hfront, hfound,
    (first_endpoint_found configuration).2.2 _ _ hfront hfound⟩

end UsbHost
