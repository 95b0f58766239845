import UsbHost.Core.Access
import UsbHost.Host.Failure
import UsbHost.Host.Link
import UsbHost.Machine.Waiting

/-!
# The host driver

A `Host` is a core with a clock and the settings it is driven by.  Operations
that concern the attached device run in `HostM`: they may fail, and keep what
they have learned about the device even then.
-/

namespace UsbHost

/-- Time limits, pauses and sizes.  The defaults suit full- and low-speed
input devices. -/
structure Settings where
  /-- For one packet exchange. -/
  transferTimeout : Duration := .ofMillis 50
  /-- Attempts for each stage of a control transfer. -/
  nakRetryLimit : Nat := 100
  nakRetryDelay : Duration := .ofMillis 1
  resetHold : Duration := .ofMillis 60
  resetSettle : Duration := .ofMillis 20
  portEnableTimeout : Duration := .ofMillis 500
  portPollInterval : Duration := .ofMillis 10
  addressSettle : Duration := .ofMillis 10
  powerSettle : Duration := .ofMillis 50
  ahbIdleTimeout : Duration := .ofMillis 100
  coreResetTimeout : Duration := .ofMillis 100
  coreResetSettle : Duration := .ofMillis 100
  clockUngateSettle : Duration := .ofMillis 10
  forceHostSettle : Duration := .ofMillis 50
  hostModeTimeout : Duration := .ofMillis 100
  fifoFlushTimeout : Duration := .ofMillis 10
  portPowerSettle : Duration := .ofMillis 100
  startOfFrameTimeout : Duration := .ofMillis 3
  txFifoTimeout : Duration := .ofMillis 10
  channelHaltTimeout : Duration := .ofMillis 10
  /-- The FIFO sizes in words; the transmit FIFOs follow the receive FIFO. -/
  rxFifoWords : Half := 512
  npTxFifoWords : Half := 256
  periodicTxFifoWords : Half := 256
  /-- Clocks of the PHY in a frame of one millisecond. -/
  frameInterval : Half := 48000

/-- A core in host mode and how it is driven. -/
structure Host (σ : Type) where
  core : Core σ
  settings : Settings := {}

/-- Operations on the attached device: what they learn about it stays learned
when they fail. -/
abbrev HostM (σ : Type) := ExceptT UsbError (StateT Link (Run Register σ))

/-- What a transfer came to, and the caller's buffer after it. -/
structure Moved (ε : Type) where
  /-- The number of bytes moved. -/
  result : Except ε Nat
  buffer : List Byte

/-- How the USB block is switched on before the core is touched. -/
abbrev PowerSwitch (σ : Type) := Run Register σ (Except UsbError Unit)

/-- For boards whose USB block has power from the start. -/
def PowerSwitch.alwaysOn {σ : Type} : Run Register σ (Except UsbError Unit) :=
  pure (.ok ())

/-- The identity register of the core. -/
def Host.version {σ : Type} (host : Host σ) : Run Register σ Word :=
  host.core.load .coreId

end UsbHost
