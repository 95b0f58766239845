import UsbHost.Core.Fields
import UsbHost.Core.Flags
import UsbHost.Core.Register
import UsbHost.Machine.Basic

/-!
# Typed access to the core

Every register has a content: the fields, the flags or the number that its word
stands for.  A driver loads and stores contents.  The port is the exception: it
is changed by reading it and writing it back with every status bit kept quiet.

## Main results

* `Core.load_run`, `Core.store_run` — a load is one read and a store one write.
* `Core.updatePort_run`, `Core.acknowledgePort_run` — what the two changes of
  the port write.
-/

namespace UsbHost

/-! ## Contents -/

namespace Register

/-- What the word of a register stands for. -/
@[reducible] def Content : Register → Type
  | ahbConfig => AhbConfig
  | usbConfig => UsbConfig
  | resetControl => ResetControl
  | interruptStatus => CoreInterrupts
  | interruptMask => CoreInterrupts
  | rxStatusPop => RxStatus
  | rxFifoSize => Half
  | npTxFifoSize => FifoSize
  | npTxStatus => NpTxStatus
  | coreId => Word
  | periodicTxFifoSize => FifoSize
  | hostConfig => HostConfig
  | frameInterval => Half
  | frameNumber => Half
  | channelInterruptMask => Word
  | port => HostPort
  | powerClock => Word
  | channel _ .characteristics => ChannelCharacteristics
  | channel _ .splitControl => Word
  | channel _ .interrupts => ChannelInterrupts
  | channel _ .interruptMask => ChannelInterrupts
  | channel _ .transferSize => TransferSize
  | fifo _ => Word

/-- The content of a word: flags without a meaning are dropped, and so is the
upper half of what is 16 bits wide. -/
def decode (r : Register) (v : Word) : r.Content :=
  match r with
  | ahbConfig | interruptStatus | interruptMask
  | channel _ .interrupts | channel _ .interruptMask => FlagSet.truncate v
  | usbConfig | resetControl | rxStatusPop | npTxFifoSize | npTxStatus
  | periodicTxFifoSize | hostConfig | port
  | channel _ .characteristics | channel _ .transferSize => Packed.ofRaw v
  | rxFifoSize | frameInterval | frameNumber => v.setWidth 16
  | coreId | channelInterruptMask | powerClock
  | channel _ .splitControl | fifo _ => v

/-- The word of a content. -/
def encode (r : Register) : r.Content → Word :=
  match r with
  | ahbConfig | interruptStatus | interruptMask
  | channel _ .interrupts | channel _ .interruptMask => FlagSet.bits
  | usbConfig | resetControl | rxStatusPop | npTxFifoSize | npTxStatus
  | periodicTxFifoSize | hostConfig | port
  | channel _ .characteristics | channel _ .transferSize => Packed.raw
  | rxFifoSize | frameInterval | frameNumber => BitVec.setWidth 32
  | coreId | channelInterruptMask | powerClock
  | channel _ .splitControl | fifo _ => id

end Register

/-! ## Loads and stores -/

/-- A DWC2 core and a clock. -/
abbrev Core (σ : Type) := Machine Register σ

/-- A change of the port's control bits; `none` leaves a bit as it is. -/
structure PortControl where
  power : Option Bool := none
  reset : Option Bool := none

/-- The port register with the change made. -/
def PortControl.apply (c : PortControl) (p : HostPort) : HostPort :=
  let p := match c.power with
    | some on => HostPort.power.set on p
    | none => p
  match c.reset with
    | some on => HostPort.reset.set on p
    | none => p

namespace Core

variable {σ : Type} (core : Core σ)

/-- Reads the content of a register. -/
def load (r : Register) : Run Register σ r.Content :=
  return r.decode (← core.read r)

/-- Writes the content of a register. -/
def store (r : Register) (content : r.Content) : Run Register σ Unit :=
  core.write r (r.encode content)

/-- Writes ones to every bit of a register. -/
def storeOnes (r : Register) : Run Register σ Unit :=
  core.write r (BitVec.allOnes 32)

/-- Acknowledges the given changes of the port and nothing else. -/
def acknowledgePort (changes : PortChanges) : Run Register σ Unit := do
  let port ← core.load .port
  core.store .port ⟨port.quiet.raw ||| changes.bits⟩

/-- Changes control bits of the port; no status bit is acknowledged and the
port stays enabled. -/
def updatePort (change : PortControl) : Run Register σ Unit := do
  let port ← core.load .port
  core.store .port (change.apply port.quiet)

theorem load_run (r : Register) (p : Nat) (w : World Register σ) :
    core.load r p w =
      let (v, env) := core.bus.read r w.env
      .ok (r.decode v) ⟨env, .read r v :: w.log⟩ := rfl

theorem store_run (r : Register) (content : r.Content) (p : Nat)
    (w : World Register σ) :
    core.store r content p w =
      .ok () ⟨core.bus.write r (r.encode content) w.env,
        .write r (r.encode content) :: w.log⟩ := rfl

theorem updatePort_run (change : PortControl) (p : Nat)
    (w : World Register σ) :
    core.updatePort change p w =
      let (v, env) := core.bus.read .port w.env
      let v' := (change.apply (HostPort.quiet ⟨v⟩)).raw
      .ok () ⟨core.bus.write .port v' env,
        .write .port v' :: .read .port v :: w.log⟩ := rfl

theorem acknowledgePort_run (changes : PortChanges) (p : Nat)
    (w : World Register σ) :
    core.acknowledgePort changes p w =
      let (v, env) := core.bus.read .port w.env
      let v' := (HostPort.quiet ⟨v⟩).raw ||| changes.bits
      .ok () ⟨core.bus.write .port v' env,
        .write .port v' :: .read .port v :: w.log⟩ := rfl

end Core

end UsbHost
