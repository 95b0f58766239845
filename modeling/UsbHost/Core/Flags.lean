import UsbHost.Bits.FlagSet

/-!
# Flags of the registers

The registers that hold independent conditions.  Reading one drops the bits
without a meaning.
-/

namespace UsbHost

/-- GAHBCFG: bit 0 enables interrupts, bit 5 direct memory access. -/
abbrev AhbConfig := FlagSet (0x21 : Word)

/-- Interrupts of the core are passed on. -/
def AhbConfig.globalInterruptEnable : AhbConfig := .truncate 0x01

/-! ## Interrupts of the core -/

/-- GINTSTS and GINTMSK. -/
abbrev CoreInterrupts := FlagSet (0x2700003B : Word)

namespace CoreInterrupts

/-- The core is in host mode. -/
def hostMode : CoreInterrupts := .truncate (1 <<< 0)
def startOfFrame : CoreInterrupts := .truncate (1 <<< 3)
/-- The receive queue holds an entry. -/
def rxFifoLevel : CoreInterrupts := .truncate (1 <<< 4)
def port : CoreInterrupts := .truncate (1 <<< 24)
def channel : CoreInterrupts := .truncate (1 <<< 25)

end CoreInterrupts

/-! ## Interrupts of a channel -/

/-- HCINT and HCINTMSK. -/
abbrev ChannelInterrupts := FlagSet (0x7FF : Word)

namespace ChannelInterrupts

def transferComplete : ChannelInterrupts := .truncate (1 <<< 0)
def halted : ChannelInterrupts := .truncate (1 <<< 1)
def ahbError : ChannelInterrupts := .truncate (1 <<< 2)
def stall : ChannelInterrupts := .truncate (1 <<< 3)
def nak : ChannelInterrupts := .truncate (1 <<< 4)
def ack : ChannelInterrupts := .truncate (1 <<< 5)
def transactionError : ChannelInterrupts := .truncate (1 <<< 7)
def babble : ChannelInterrupts := .truncate (1 <<< 8)
def toggleError : ChannelInterrupts := .truncate (1 <<< 10)

/-- What ends an exchange as a plain error. -/
def errors : ChannelInterrupts :=
  ahbError.union <| stall.union <| transactionError.union babble

/-- What every channel is armed with. -/
def armed : ChannelInterrupts :=
  transferComplete.union <| halted.union <| stall.union <| nak.union <|
    ack.union <| transactionError.union <| babble.union toggleError

end ChannelInterrupts

/-! ## Changes of the port -/

/-- The change bits of HPRT: connection, enabling and overcurrent. -/
abbrev PortChanges := FlagSet (0x2A : Word)

/-- The port has been enabled or disabled. -/
def PortChanges.enableChanged : PortChanges := .truncate (1 <<< 3)

end UsbHost
