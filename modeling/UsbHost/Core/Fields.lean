import UsbHost.Bits.Division
import UsbHost.Wire.Code

/-!
# Fields of the registers

The registers that are divided into fields, each a 32-bit word under a name of
its own.  Bits without a field are reserved and pass through every change of a
field.  The fields stand where the register map puts them, and the division of
each register says again, by widths alone, what follows what.
-/

namespace UsbHost

/-! ## Global registers -/

/-- GUSBCFG -/
structure UsbConfig where
  raw : Word
deriving DecidableEq

namespace UsbConfig

instance : Packed UsbConfig 32 := ⟨raw, mk, fun _ => rfl, fun _ => rfl⟩

def timeoutCalibration : BitField UsbConfig (BitVec 3) := .uint 0 3
def fullSpeedPhy : BitField UsbConfig Bool := .flag 6
def forceHost : BitField UsbConfig Bool := .flag 29
def forceDevice : BitField UsbConfig Bool := .flag 30
def corruptTx : BitField UsbConfig Bool := .flag 31

def division : Division UsbConfig where
  parts :=
    [.field ⟨"timeout calibration", timeoutCalibration⟩, .reserved 3,
      .field ⟨"full speed phy", fullSpeedPhy⟩, .reserved 22,
      .field ⟨"force host", forceHost⟩, .field ⟨"force device", forceDevice⟩,
      .field ⟨"corrupt tx", corruptTx⟩]

end UsbConfig

/-- GRSTCTL -/
structure ResetControl where
  raw : Word
deriving DecidableEq

namespace ResetControl

instance : Packed ResetControl 32 := ⟨raw, mk, fun _ => rfl, fun _ => rfl⟩

def coreSoftReset : BitField ResetControl Bool := .flag 0
def hclkSoftReset : BitField ResetControl Bool := .flag 1
def frameCounterReset : BitField ResetControl Bool := .flag 2
def rxFifoFlush : BitField ResetControl Bool := .flag 4
def txFifoFlush : BitField ResetControl Bool := .flag 5
def txFifoNumber : BitField ResetControl (BitVec 5) := .uint 6 5
def dmaRequest : BitField ResetControl Bool := .flag 30
def ahbIdle : BitField ResetControl Bool := .flag 31

/-- The FIFO number that stands for every transmit FIFO in a flush. -/
def allTxFifos : BitVec 5 := 0x10

def division : Division ResetControl where
  parts :=
    [.field ⟨"core soft reset", coreSoftReset⟩,
      .field ⟨"hclk soft reset", hclkSoftReset⟩,
      .field ⟨"frame counter reset", frameCounterReset⟩, .reserved 1,
      .field ⟨"rx fifo flush", rxFifoFlush⟩,
      .field ⟨"tx fifo flush", txFifoFlush⟩,
      .field ⟨"tx fifo number", txFifoNumber⟩, .reserved 19,
      .field ⟨"dma request", dmaRequest⟩, .field ⟨"ahb idle", ahbIdle⟩]

end ResetControl

/-- GNPTXFSIZ and HPTXFSIZ, in words. -/
structure FifoSize where
  raw : Word
deriving DecidableEq

namespace FifoSize

instance : Packed FifoSize 32 := ⟨raw, mk, fun _ => rfl, fun _ => rfl⟩

def startAddress : BitField FifoSize Half := .uint 0 16
def depth : BitField FifoSize Half := .uint 16 16

/-- A FIFO of `words` words that begins at `start`. -/
def of (start words : Half) : FifoSize :=
  startAddress.set start (depth.set words ⟨0⟩)

def division : Division FifoSize where
  parts :=
    [.field ⟨"start address", startAddress⟩, .field ⟨"depth", depth⟩]

end FifoSize

/-- GNPTXSTS -/
structure NpTxStatus where
  raw : Word
deriving DecidableEq

namespace NpTxStatus

instance : Packed NpTxStatus 32 := ⟨raw, mk, fun _ => rfl, fun _ => rfl⟩

/-- Free words of the FIFO. -/
def spaceAvailable : BitField NpTxStatus Half := .uint 0 16
def queueSpace : BitField NpTxStatus Byte := .uint 16 8
def queueTop : BitField NpTxStatus (BitVec 7) := .uint 24 7

def division : Division NpTxStatus where
  parts :=
    [.field ⟨"space available", spaceAvailable⟩,
      .field ⟨"queue space", queueSpace⟩, .field ⟨"queue top", queueTop⟩,
      .reserved 1]

end NpTxStatus

/-- GRXSTSP: an entry of the receive queue. -/
structure RxStatus where
  raw : Word
deriving DecidableEq

namespace RxStatus

instance : Packed RxStatus 32 := ⟨raw, mk, fun _ => rfl, fun _ => rfl⟩

def channel : BitField RxStatus (BitVec 4) := .uint 0 4
def byteCount : BitField RxStatus (BitVec 11) := .uint 4 11
def dataPid : BitField RxStatus (BitVec 2) := .uint 15 2
def packetStatus : BitField RxStatus PacketStatus :=
  .coded 17 PacketStatus.coding

def division : Division RxStatus where
  parts :=
    [.field ⟨"channel", channel⟩, .field ⟨"byte count", byteCount⟩,
      .field ⟨"data pid", dataPid⟩, .field ⟨"packet status", packetStatus⟩,
      .reserved 11]

end RxStatus

/-! ## Host registers -/

/-- HCFG -/
structure HostConfig where
  raw : Word
deriving DecidableEq

namespace HostConfig

instance : Packed HostConfig 32 := ⟨raw, mk, fun _ => rfl, fun _ => rfl⟩

/-- 1 selects the 48 MHz clock of full and low speed. -/
def phyClock : BitField HostConfig (BitVec 2) := .uint 0 2
def fullSpeedOnly : BitField HostConfig Bool := .flag 2

def division : Division HostConfig where
  parts :=
    [.field ⟨"phy clock", phyClock⟩, .field ⟨"full speed only", fullSpeedOnly⟩,
      .reserved 29]

end HostConfig

/-- HPRT -/
structure HostPort where
  raw : Word
deriving DecidableEq

namespace HostPort

instance : Packed HostPort 32 := ⟨raw, mk, fun _ => rfl, fun _ => rfl⟩

def connected : BitField HostPort Bool := .flag 0
def connectDetected : BitField HostPort Bool := .flag 1
def enabled : BitField HostPort Bool := .flag 2
def enableChanged : BitField HostPort Bool := .flag 3
def overcurrent : BitField HostPort Bool := .flag 4
def overcurrentChanged : BitField HostPort Bool := .flag 5
def resume : BitField HostPort Bool := .flag 6
def suspend : BitField HostPort Bool := .flag 7
def reset : BitField HostPort Bool := .flag 8
def lineStatus : BitField HostPort (BitVec 2) := .uint 10 2
def power : BitField HostPort Bool := .flag 12
def testControl : BitField HostPort (BitVec 4) := .uint 13 4
def speed : BitField HostPort (BitVec 2) := .uint 17 2

/-- The bits that change the port's status when written as one: the three
change bits, and the enable bit, which turns the port off. -/
def writeOneToClear : Word := 0x2E

/-- The register with every such bit cleared, safe to be written back. -/
def quiet (p : HostPort) : HostPort := ⟨p.raw &&& ~~~writeOneToClear⟩

def division : Division HostPort where
  parts :=
    [.field ⟨"connected", connected⟩,
      .field ⟨"connect detected", connectDetected⟩,
      .field ⟨"enabled", enabled⟩, .field ⟨"enable changed", enableChanged⟩,
      .field ⟨"overcurrent", overcurrent⟩,
      .field ⟨"overcurrent changed", overcurrentChanged⟩,
      .field ⟨"resume", resume⟩, .field ⟨"suspend", suspend⟩,
      .field ⟨"reset", reset⟩, .reserved 1, .field ⟨"line status", lineStatus⟩,
      .field ⟨"power", power⟩, .field ⟨"test control", testControl⟩,
      .field ⟨"speed", speed⟩, .reserved 13]

end HostPort

/-! ## Channel registers -/

/-- HCCHAR -/
structure ChannelCharacteristics where
  raw : Word
deriving DecidableEq

namespace ChannelCharacteristics

instance : Packed ChannelCharacteristics 32 :=
  ⟨raw, mk, fun _ => rfl, fun _ => rfl⟩

def maxPacketSize : BitField ChannelCharacteristics (BitVec 11) := .uint 0 11
def endpoint : BitField ChannelCharacteristics (BitVec 4) := .uint 11 4
def direction : BitField ChannelCharacteristics Direction :=
  .coded 15 Direction.coding
def lowSpeed : BitField ChannelCharacteristics Bool := .flag 17
def transferType : BitField ChannelCharacteristics TransferType :=
  .coded 18 TransferType.coding
def multiCount : BitField ChannelCharacteristics (BitVec 2) := .uint 20 2
def deviceAddress : BitField ChannelCharacteristics (BitVec 7) := .uint 22 7
def oddFrame : BitField ChannelCharacteristics Bool := .flag 29
def disable : BitField ChannelCharacteristics Bool := .flag 30
def enable : BitField ChannelCharacteristics Bool := .flag 31

def division : Division ChannelCharacteristics where
  parts :=
    [.field ⟨"max packet size", maxPacketSize⟩, .field ⟨"endpoint", endpoint⟩,
      .field ⟨"direction", direction⟩, .reserved 1,
      .field ⟨"low speed", lowSpeed⟩, .field ⟨"transfer type", transferType⟩,
      .field ⟨"multi count", multiCount⟩,
      .field ⟨"device address", deviceAddress⟩, .field ⟨"odd frame", oddFrame⟩,
      .field ⟨"disable", disable⟩, .field ⟨"enable", enable⟩]

end ChannelCharacteristics

/-- HCTSIZ -/
structure TransferSize where
  raw : Word
deriving DecidableEq

namespace TransferSize

instance : Packed TransferSize 32 := ⟨raw, mk, fun _ => rfl, fun _ => rfl⟩

def bytes : BitField TransferSize (BitVec 19) := .uint 0 19
def packetCount : BitField TransferSize (BitVec 10) := .uint 19 10
def pid : BitField TransferSize Pid := .coded 29 Pid.coding
def doPing : BitField TransferSize Bool := .flag 31

def division : Division TransferSize where
  parts :=
    [.field ⟨"bytes", bytes⟩, .field ⟨"packet count", packetCount⟩,
      .field ⟨"pid", pid⟩, .field ⟨"do ping", doPing⟩]

end TransferSize

end UsbHost
