import UsbHost.Core.Fields
import UsbHost.Wire.Descriptor

/-!
# Fields as independent parts of a register

Every register, and each of the two packed bytes of an endpoint descriptor, is
changed one field at a time, by reading the whole word and writing it back.
That this does what it says rests on its fields being independent of each other
and of the bits without a meaning, and on each of them standing where the
hardware has it.  The first follows from the divisions alone, without looking at
any one field; the second is a table.

One field does not survive being written back.  The status of a received packet
has sixteen codes of which eleven read as reserved, and reserved is written as
15.

## Main results

* `RegisterType.places_eq` — every field is in its place.
* `RegisterType.exact_or_packetStatus` — the codings without spare patterns.
* `RxStatus.packetStatus_rewritten` — the status of a packet written back.
* `fields_lawful` — all fields of all registers.
-/

namespace UsbHost

/-! ## The registers -/

/-- A register type with its division. -/
structure Divided where
  Register : Type
  {width : Nat}
  [packed : Packed Register width]
  division : Division Register

attribute [instance] Divided.packed

/-- The fields, from bit 0 up. -/
def Divided.fields (R : Divided) : List (NamedField R.Register) :=
  R.division.fields

/-- The register types, and the packed bytes of an endpoint descriptor. -/
inductive RegisterType where
  | usbConfig
  | resetControl
  | fifoSize
  | npTxStatus
  | rxStatus
  | hostConfig
  | hostPort
  | channelCharacteristics
  | transferSize
  | endpointAddress
  | endpointAttributes
deriving DecidableEq

namespace RegisterType

def divided : RegisterType → Divided
  | usbConfig => ⟨UsbConfig, UsbConfig.division⟩
  | resetControl => ⟨ResetControl, ResetControl.division⟩
  | fifoSize => ⟨FifoSize, FifoSize.division⟩
  | npTxStatus => ⟨NpTxStatus, NpTxStatus.division⟩
  | rxStatus => ⟨RxStatus, RxStatus.division⟩
  | hostConfig => ⟨HostConfig, HostConfig.division⟩
  | hostPort => ⟨HostPort, HostPort.division⟩
  | channelCharacteristics =>
    ⟨ChannelCharacteristics, ChannelCharacteristics.division⟩
  | transferSize => ⟨TransferSize, TransferSize.division⟩
  | endpointAddress => ⟨EndpointAddress, EndpointAddress.division⟩
  | endpointAttributes => ⟨EndpointAttributes, EndpointAttributes.division⟩

/-- The fields that the hardware has, each with its highest bit and its lowest
one. -/
def contract : RegisterType → List (String × Nat × Nat)
  | usbConfig =>
    [("timeout calibration", 2, 0), ("full speed phy", 6, 6),
      ("force host", 29, 29), ("force device", 30, 30), ("corrupt tx", 31, 31)]
  | resetControl =>
    [("core soft reset", 0, 0), ("hclk soft reset", 1, 1),
      ("frame counter reset", 2, 2), ("rx fifo flush", 4, 4),
      ("tx fifo flush", 5, 5), ("tx fifo number", 10, 6),
      ("dma request", 30, 30), ("ahb idle", 31, 31)]
  | fifoSize => [("start address", 15, 0), ("depth", 31, 16)]
  | npTxStatus =>
    [("space available", 15, 0), ("queue space", 23, 16), ("queue top", 30, 24)]
  | rxStatus =>
    [("channel", 3, 0), ("byte count", 14, 4), ("data pid", 16, 15),
      ("packet status", 20, 17)]
  | hostConfig => [("phy clock", 1, 0), ("full speed only", 2, 2)]
  | hostPort =>
    [("connected", 0, 0), ("connect detected", 1, 1), ("enabled", 2, 2),
      ("enable changed", 3, 3), ("overcurrent", 4, 4),
      ("overcurrent changed", 5, 5), ("resume", 6, 6), ("suspend", 7, 7),
      ("reset", 8, 8), ("line status", 11, 10), ("power", 12, 12),
      ("test control", 16, 13), ("speed", 18, 17)]
  | channelCharacteristics =>
    [("max packet size", 10, 0), ("endpoint", 14, 11), ("direction", 15, 15),
      ("low speed", 17, 17), ("transfer type", 19, 18), ("multi count", 21, 20),
      ("device address", 28, 22), ("odd frame", 29, 29), ("disable", 30, 30),
      ("enable", 31, 31)]
  | transferSize =>
    [("bytes", 18, 0), ("packet count", 28, 19), ("pid", 30, 29),
      ("do ping", 31, 31)]
  | endpointAddress => [("number", 3, 0), ("direction", 7, 7)]
  | endpointAttributes =>
    [("transfer type", 1, 0), ("sync type", 3, 2), ("usage type", 5, 4)]

/-- Every field of the hardware is there, in its place, and no other field. -/
theorem places_eq (t : RegisterType) :
    t.divided.fields.map NamedField.place = t.contract := by
  cases t <;> rfl

/-- Each pattern of a field is the canonical one of its value, but for the status
of a received packet. -/
theorem exact_or_packetStatus (t : RegisterType) :
    ∀ f ∈ t.divided.fields, f.bits.coding.Exact ∨
      t = rxStatus ∧ f.name = "packet status" := by
  cases t
  -- One goal for each field, and one for the end of each list.
  all_goals repeat' refine List.forall_mem_cons.2 ⟨?_, ?_⟩
  all_goals first
    | exact .inl Coding.flag_exact
    | exact .inl (Coding.uint_exact _)
    | exact .inl Direction.coding_exact
    | exact .inl TransferType.coding_exact
    | exact .inl Pid.coding_exact
    | exact .inr ⟨rfl, rfl⟩
    | exact List.forall_mem_nil _

end RegisterType

/-! ## The status of a received packet -/

/-- The codes of the status of a received packet that are written back as they
are read; all others are written back as 15. -/
theorem PacketStatus.encode_decode (b : BitVec 4) :
    PacketStatus.coding.encode (PacketStatus.coding.decode b) =
      if b.toNat ∈ [2, 3, 5, 7, 15] then b else 0xF := by
  revert b
  decide

namespace RxStatus

/-- The code of the status. -/
def statusCode (r : RxStatus) : Nat := (r.raw.extractLsb' 17 4).toNat

/-- Written back, the status of a packet is as it was or becomes 15, and no bit
outside it changes. -/
theorem packetStatus_rewritten (r : RxStatus) :
    (packetStatus.set (packetStatus.get r) r).raw =
      if r.statusCode ∈ [2, 3, 5, 7, 15] then r.raw
      else r.raw ||| 0x1E0000 := by
  have hcode : packetStatus.coding.encode (packetStatus.get r) =
      if r.statusCode ∈ [2, 3, 5, 7, 15] then r.raw.extractLsb' 17 4
      else 0xF := PacketStatus.encode_decode _
  split
  next hcanonical =>
    rw [if_pos hcanonical] at hcode
    exact congrArg raw (packetStatus.set_get_of_canonical r hcode)
  next hforeign =>
    rw [if_neg hforeign] at hcode
    have hmask : (0x1E0000 : Word) = packetStatus.mask := by decide
    apply BitVec.eq_of_getLsbD_eq
    intro i _
    refine (packetStatus.getLsbD_set _ r i).trans ?_
    rw [hcode, BitVec.getLsbD_or, hmask, BitField.getLsbD_mask]
    by_cases hc : packetStatus.Covers i
    · have hones : ∀ j < 4, (0xF : BitVec 4).getLsbD j = true := by decide
      have hin : i - packetStatus.lo < 4 := Nat.sub_lt_left_of_lt_add hc.1 hc.2
      rw [if_pos hc, decide_eq_true hc, Bool.or_true]
      exact hones _ hin
    · rw [if_neg hc, decide_eq_false hc, Bool.or_false]
      rfl

end RxStatus

/-! ## The laws -/

/-- A register is its raw word under another name: both ways between them are
inverse to each other.  Its fields are those of the hardware, each in its place.
A field is read from its own bits alone; it reads as what was written to it last,
in its bits stands the code of that, and a write leaves every bit outside the
field as it was, reserved bits among them.  Writing back what a field reads as
changes nothing, but for the status of a received packet, where every code other
than 2, 3, 5, 7 and 15 becomes 15.  Writes to different fields commute, and none
of them shows in the other. -/
theorem fields_lawful :
    (∀ t : RegisterType,
      let R := t.divided
      ((∀ b : BitVec R.width, Packed.raw (Packed.ofRaw b : R.Register) = b) ∧
        ∀ r : R.Register, Packed.ofRaw (Packed.raw r) = r) ∧
      R.fields.map NamedField.place = t.contract ∧
      (∀ f ∈ R.fields,
        (∀ r s : R.Register,
          (∀ i, f.bits.Covers i →
            (Packed.raw r).getLsbD i = (Packed.raw s).getLsbD i) →
          f.bits.get r = f.bits.get s) ∧
        (∀ (a : f.Value) (r : R.Register),
          f.bits.get (f.bits.set a r) = a ∧
            (Packed.raw (f.bits.set a r)).extractLsb' f.bits.lo f.bits.width =
              f.bits.coding.encode a ∧
            (∀ b, f.bits.set a (f.bits.set b r) = f.bits.set a r) ∧
            ∀ i, ¬ f.bits.Covers i ∨ R.division.Reserved i →
              (Packed.raw (f.bits.set a r)).getLsbD i =
                (Packed.raw r).getLsbD i) ∧
        ((∀ r, f.bits.set (f.bits.get r) r = r) ∨
          t = .rxStatus ∧ f.name = "packet status")) ∧
      R.fields.Pairwise fun f g => ∀ (a : f.Value) (b : g.Value) r,
        f.bits.set a (g.bits.set b r) = g.bits.set b (f.bits.set a r) ∧
          f.bits.get (g.bits.set b r) = f.bits.get r ∧
          g.bits.get (f.bits.set a r) = g.bits.get r) ∧
    ∀ r : RxStatus,
      (RxStatus.packetStatus.set (RxStatus.packetStatus.get r) r).raw =
        if r.statusCode ∈ [2, 3, 5, 7, 15] then r.raw
        else r.raw ||| 0x1E0000 := by
  refine ⟨fun t => ⟨⟨Packed.raw_ofRaw, Packed.ofRaw_raw⟩, t.places_eq, ?fields,
    ?pairs⟩, RxStatus.packetStatus_rewritten⟩
  case fields =>
    intro f hf
    refine ⟨fun r s => f.bits.get_congr, fun a r => ?_, ?_⟩
    · refine ⟨f.bits.get_set a r, f.bits.extract_set a r,
        fun b => f.bits.set_set a b r, ?_⟩
      intro i hout
      refine f.bits.raw_set_outside a r (hout.elim id fun hreserved hc => ?_)
      exact t.divided.division.not_covers_of_reserved hreserved hf hc
    · exact (t.exact_or_packetStatus f hf).imp_left f.bits.set_get
  case pairs =>
    refine t.divided.division.disjoint.imp fun {f g} hdisjoint a b r => ?_
    exact ⟨f.bits.set_comm g.bits hdisjoint a b r,
      f.bits.get_set_of_disjoint g.bits hdisjoint b r,
      g.bits.get_set_of_disjoint f.bits hdisjoint.symm a r⟩

/-- An entry of code 4 for channel 3, with all reserved bits set: its status
comes back as 15; another channel is read as written, leaves a status written
before it, and keeps the reserved bit 31. -/
theorem foreign_status_rewritten :
    let r : RxStatus := ⟨0xFFE80123⟩
    let moved := RxStatus.channel.set 0xA r
    (RxStatus.packetStatus.set (RxStatus.packetStatus.get r) r).raw =
        0xFFFE0123 ∧
      RxStatus.channel.get moved = 0xA ∧ moved.raw.getLsbD 31 = true ∧
      RxStatus.channel.set 0xA (RxStatus.packetStatus.set .inData r) =
        RxStatus.packetStatus.set .inData moved := by
  intro r moved
  obtain ⟨hall, hstatus⟩ := fields_lawful
  obtain ⟨-, -, hfields, hpairs⟩ := hall .rxStatus
  have hchannel : ⟨"channel", RxStatus.channel⟩ ∈
      RegisterType.rxStatus.divided.fields := List.mem_cons_self
  obtain ⟨-, hwritten, -⟩ := hfields _ hchannel
  obtain ⟨hread, -, -, hkept⟩ := hwritten (0xA : BitVec 4) r
  have hapart := (List.pairwise_cons.1 hpairs).1
    ⟨"packet status", RxStatus.packetStatus⟩ (.tail _ (.tail _ (.head _)))
  refine ⟨(hstatus r).trans (by decide), hread, ?_, ?_⟩
  · exact (hkept 31 (.inl (by decide))).trans (by decide)
  · exact (hapart (0xA : BitVec 4) PacketStatus.inData r).1

end UsbHost
