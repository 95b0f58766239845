import UsbHost.Proofs.Simulation.ControlTransfer
import UsbHost.Proofs.Wire.Setup

/-!
# The requests of enumeration, seen by the device

How the simulated device answers the requests that the driver makes of it, and
what each of them changes once its handshake has been seen.

## Main results

* `answer?_getDescriptor`, `apply_getDescriptor` — reading a descriptor.
* `apply_setAddress`, `apply_setConfiguration` — the two requests that change
  where the device answers and whether it is configured.
-/

namespace UsbHost.Simulation.Device

open SetupPacket

variable (d : Device)

/-! ## What a request looks like to the device -/

section Fields

variable (r : Recipient) (t : RequestType) (direction : Direction)
  (request : Byte) (value index length : Half)

theorem get_request : SetupPacket.request.get
    (ofFields r t direction request value index length) = request :=
  (ofFields_get r t direction request value index length).2.2.2.1

theorem get_value : SetupPacket.value.get
    (ofFields r t direction request value index length) = value :=
  (ofFields_get r t direction request value index length).2.2.2.2.1

theorem get_length : SetupPacket.length.get
    (ofFields r t direction request value index length) = length :=
  (ofFields_get r t direction request value index length).2.2.2.2.2.2

theorem get_direction : SetupPacket.direction.get
    (ofFields r t direction request value index length) = direction :=
  (ofFields_get r t direction request value index length).2.2.1

end Fields

/-! ## Reading a descriptor -/

/-- The device has two descriptors to be read. -/
theorem answer?_getDescriptor (length : Half) :
    d.answer? (.getDescriptor .device 0 length) = some d.descriptor.toList ∧
      d.answer? (.getDescriptor .configuration 0 length) =
        some d.configurationDescriptor := by
  constructor
  · simp only [answer?, getDescriptor, get_request, get_value,
      typeByte_ofFields]
    rfl
  · simp only [answer?, getDescriptor, get_request, get_value,
      typeByte_ofFields]
    rfl

/-- Reading a descriptor changes nothing. -/
theorem apply_getDescriptor (kind : DescriptorType) (index : Byte)
    (length : Half) : d.apply (.getDescriptor kind index length) = d := by
  simp only [apply, getDescriptor, get_request, typeByte_ofFields]
  rfl

/-! ## Requests without data -/

theorem answer?_setAddress (address : Byte) :
    d.answer? (.setAddress address) = some [] := by
  simp only [answer?, setAddress, get_request, typeByte_ofFields]
  rfl

/-- The device answers to its new address. -/
theorem apply_setAddress (address : Byte) :
    d.apply (.setAddress address) = { d with address } := by
  have hvalue : (address.setWidth 16).setWidth 8 = address := by
    rw [BitVec.setWidth_setWidth_of_le _ (by decide), BitVec.setWidth_eq]
  simp only [apply, setAddress, get_request, get_value, typeByte_ofFields]
  rw [if_pos ⟨trivial, rfl⟩, hvalue]

theorem answer?_setConfiguration (value : Byte) :
    d.answer? (.setConfiguration value) = some [] := by
  simp only [answer?, setConfiguration, get_request, typeByte_ofFields]
  rfl

/-- The device is configured. -/
theorem apply_setConfiguration (value : Byte) :
    d.apply (.setConfiguration value) =
      { d with configuration := some value } := by
  have hvalue : (value.setWidth 16).setWidth 8 = value := by
    rw [BitVec.setWidth_setWidth_of_le _ (by decide), BitVec.setWidth_eq]
  simp only [apply, setConfiguration, get_request, get_value,
    typeByte_ofFields]
  rw [if_neg (by decide), if_pos ⟨trivial, rfl⟩, hvalue]

/-- The device reports on the given occasions from now on. -/
theorem apply_setIdle (interface duration : Byte) :
    d.apply (.setIdle interface duration) =
      { d with idleRate := some duration } := by
  have hvalue : (duration ++ (0 : Byte)).extractLsb' 8 8 = duration := by
    apply BitVec.eq_of_getLsbD_eq
    intro i hi
    have hhigh : ¬ 8 + i < 8 := by omega
    have hindex : 8 + i - 8 = i := by omega
    rw [BitVec.getLsbD_extractLsb', BitVec.getLsbD_append, if_neg hhigh, hindex,
      decide_eq_true hi, Bool.true_and]
  simp only [apply, setIdle, get_request, get_value, typeByte_ofFields]
  rw [if_neg (by decide), if_neg (by decide), if_pos ⟨trivial, rfl⟩, hvalue]

/-- Selecting another setting of an interface changes nothing here. -/
theorem apply_setInterface (interface setting : Byte) :
    d.apply (.setInterface interface setting) = d := by
  simp only [apply, setInterface, get_request, typeByte_ofFields]
  rfl

end UsbHost.Simulation.Device
