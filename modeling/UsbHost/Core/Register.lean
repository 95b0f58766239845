import UsbHost.Bits.Word

/-!
# Register map of the core

The registers a DWC2 core has in host mode, and where they lie relative to its
base address.  Eight host channels have a register block and a FIFO window
each.

## Main results

* `Register.offset_injective` — no two registers share an offset.
-/

namespace UsbHost

/-- One of the eight host channels. -/
abbrev Channel := Fin 8

namespace Channel

/-- The channel of every control transfer. -/
def control : Channel := 0

/-- The channel that polls the interrupt endpoint. -/
def interrupt : Channel := 1

/-- Every channel, in order. -/
def all : List Channel := List.finRange 8

end Channel

/-- The registers of one host channel. -/
inductive ChannelRegister where
  /-- HCCHAR -/
  | characteristics
  /-- HCSPLT -/
  | splitControl
  /-- HCINT -/
  | interrupts
  /-- HCINTMSK -/
  | interruptMask
  /-- HCTSIZ -/
  | transferSize
deriving DecidableEq

/-- The position of a register in its channel's block. -/
def ChannelRegister.offset : ChannelRegister → Nat
  | characteristics => 0x00
  | splitControl => 0x04
  | interrupts => 0x08
  | interruptMask => 0x0C
  | transferSize => 0x10

/-- The registers of the core. -/
inductive Register where
  /-- GAHBCFG -/
  | ahbConfig
  /-- GUSBCFG -/
  | usbConfig
  /-- GRSTCTL -/
  | resetControl
  /-- GINTSTS -/
  | interruptStatus
  /-- GINTMSK -/
  | interruptMask
  /-- GRXSTSP; a read takes the entry off the queue -/
  | rxStatusPop
  /-- GRXFSIZ -/
  | rxFifoSize
  /-- GNPTXFSIZ -/
  | npTxFifoSize
  /-- GNPTXSTS -/
  | npTxStatus
  /-- GSNPSID -/
  | coreId
  /-- HPTXFSIZ -/
  | periodicTxFifoSize
  /-- HCFG -/
  | hostConfig
  /-- HFIR -/
  | frameInterval
  /-- HFNUM -/
  | frameNumber
  /-- HAINTMSK -/
  | channelInterruptMask
  /-- HPRT -/
  | port
  /-- PCGCCTL -/
  | powerClock
  | channel (c : Channel) (r : ChannelRegister)
  /-- The data window of a channel -/
  | fifo (c : Channel)
deriving DecidableEq

namespace Register

/-- The distance from the core's base address. -/
def offset : Register → Nat
  | ahbConfig => 0x008
  | usbConfig => 0x00C
  | resetControl => 0x010
  | interruptStatus => 0x014
  | interruptMask => 0x018
  | rxStatusPop => 0x020
  | rxFifoSize => 0x024
  | npTxFifoSize => 0x028
  | npTxStatus => 0x02C
  | coreId => 0x040
  | periodicTxFifoSize => 0x100
  | hostConfig => 0x400
  | frameInterval => 0x404
  | frameNumber => 0x408
  | channelInterruptMask => 0x418
  | port => 0x440
  | powerClock => 0xE00
  | channel c r => 0x500 + c.val * 0x20 + r.offset
  | fifo c => 0x1000 + c.val * 0x1000

/-- Every register, in the order of the offsets. -/
def all : List Register :=
  [ahbConfig, usbConfig, resetControl, interruptStatus, interruptMask,
    rxStatusPop, rxFifoSize, npTxFifoSize, npTxStatus, coreId,
    periodicTxFifoSize, hostConfig, frameInterval, frameNumber,
    channelInterruptMask, port] ++
  Channel.all.flatMap (fun c =>
    [channel c .characteristics, channel c .splitControl,
      channel c .interrupts, channel c .interruptMask,
      channel c .transferSize]) ++
  powerClock :: Channel.all.map fifo

/-- The register at an offset. -/
def ofOffset? (offset : Nat) : Option Register :=
  all.find? fun r => r.offset == offset

theorem mem_all (r : Register) : r ∈ all := by
  cases r with
  | channel c r => revert c; cases r <;> decide
  | fifo c => revert c; decide
  | _ => decide

theorem ofOffset?_offset (r : Register) : ofOffset? r.offset = some r := by
  have h : ∀ r ∈ all, ofOffset? r.offset = some r := by decide
  exact h r (mem_all r)

/-- No two registers share an offset. -/
theorem offset_injective {r s : Register} (h : r.offset = s.offset) :
    r = s := by
  have := ofOffset?_offset r
  rw [h, ofOffset?_offset s] at this
  exact (Option.some.inj this).symm

end Register

end UsbHost
