import UsbHost.Host.Exchange

/-!
# Bringing up the core

From power-on to polled host mode.  Only a refused power request and a foreign
identity register are fatal; a wait that runs out of time is passed over, since
the core usually works regardless.
-/

namespace UsbHost

/-- Whether an identity register is that of a DWC2 core, of any release. -/
def isDwc2Id (id : Word) : Bool := id &&& 0xFFFFF000 = 0x4F542000

namespace Host

variable {σ : Type} (host : Host σ)

/-! ## Stages -/

/-- Resets the core once its bus is idle. -/
def resetCore : Run Register σ Unit := do
  let _ ← host.core.waitUntil host.settings.ahbIdleTimeout do
    return ResetControl.ahbIdle.get (← host.core.load .resetControl)
  host.core.store .resetControl (ResetControl.coreSoftReset.set true ⟨0⟩)
  let _ ← host.core.waitUntil host.settings.coreResetTimeout do
    return !ResetControl.coreSoftReset.get (← host.core.load .resetControl)
  host.core.delay host.settings.coreResetSettle

/-- Makes the core a host on its full-speed PHY. -/
def forceHostMode : Run Register σ Unit := do
  let config ← host.core.load .usbConfig
  host.core.store .usbConfig <|
    UsbConfig.fullSpeedPhy.set true <|
    UsbConfig.forceHost.set true <|
    UsbConfig.forceDevice.set false config
  host.core.delay host.settings.forceHostSettle
  let _ ← host.core.waitUntil host.settings.hostModeTimeout do
    return (← host.core.load .interruptStatus).contains
      CoreInterrupts.hostMode

/-- Divides the FIFO memory: receive, non-periodic and periodic transmit.  The
start of the last part has to fit its field. -/
def divideFifos : Run Register σ Unit := do
  let rx := host.settings.rxFifoWords
  let npTx := host.settings.npTxFifoWords
  host.core.store .rxFifoSize rx
  host.core.store .npTxFifoSize (.of rx npTx)
  let start ← Run.add rx npTx
  host.core.store .periodicTxFifoSize
    (.of start host.settings.periodicTxFifoWords)

/-- Discards what the FIFOs hold. -/
def emptyFifos : Run Register σ Unit := do
  host.core.store .resetControl <|
    ResetControl.txFifoNumber.set ResetControl.allTxFifos <|
    ResetControl.txFifoFlush.set true ⟨0⟩
  let _ ← host.core.waitUntil host.settings.fifoFlushTimeout do
    return !ResetControl.txFifoFlush.get (← host.core.load .resetControl)
  host.core.store .resetControl (ResetControl.rxFifoFlush.set true ⟨0⟩)
  let _ ← host.core.waitUntil host.settings.fifoFlushTimeout do
    return !ResetControl.rxFifoFlush.get (← host.core.load .resetControl)

/-- Halts and arms every channel. -/
def armChannels : Run Register σ Unit := do
  Channel.all.forM fun c => do
    host.quiesce c
    host.core.store (.channel c .interruptMask) ChannelInterrupts.armed
  host.core.store .channelInterruptMask 0xFF

/-- The interrupts that are latched for polling. -/
def polledInterrupts : CoreInterrupts :=
  CoreInterrupts.startOfFrame.union <| CoreInterrupts.rxFifoLevel.union <|
    CoreInterrupts.port.union CoreInterrupts.channel

/-- Configures a core that has been identified. -/
def configure : Run Register σ Unit := do
  host.core.store .interruptMask FlagSet.empty
  host.core.store .ahbConfig FlagSet.empty
  host.resetCore
  host.core.store .powerClock 0
  host.core.delay host.settings.clockUngateSettle
  host.forceHostMode
  host.divideFifos
  host.emptyFifos
  host.core.store .hostConfig (HostConfig.phyClock.set 1 ⟨0⟩)
  host.core.store .frameInterval host.settings.frameInterval
  host.armChannels
  host.core.storeOnes .interruptStatus
  host.core.store .interruptMask polledInterrupts
  host.core.store .ahbConfig AhbConfig.globalInterruptEnable
  host.core.updatePort { power := some true }
  host.core.delay host.settings.portPowerSettle

/-- Powers, identifies and configures the core, and powers its port. -/
def init (power : PowerSwitch σ) : HostM σ Unit := do
  match ← (power : Run Register σ (Except UsbError Unit)) with
  | .error _ => throw .powerOnFailed
  | .ok _ =>
    host.core.delay host.settings.powerSettle
    let id ← host.core.load .coreId
    if isDwc2Id id then
      host.configure
    else
      throw (.unknownController id)

end Host

end UsbHost
