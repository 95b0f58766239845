import UsbHost.Bits.Word

/-!
# Failures

Why a packet exchange, and why an operation of the driver, did not succeed.
Each failure is a cause; its wordings are functions of the cause.
-/

namespace UsbHost

/-! ## Failures of an exchange -/

/-- Why a single packet exchange did not complete. -/
inductive TransferError where
  /-- The device had nothing to send, or could not accept data yet. -/
  | nak
  /-- The endpoint rejected the request. -/
  | stall
  /-- Bus error, babble, checksum or toggle mismatch, or a channel that halted
  without a reason. -/
  | error
  /-- The channel neither completed nor failed in time. -/
  | timeout
deriving DecidableEq, Inhabited

namespace TransferError

/-- Only what was refused for now is worth trying again. -/
def isTransient (e : TransferError) : Bool := e = nak

def message : TransferError → String
  | nak => "NAK"
  | stall => "STALL"
  | error => "transaction error"
  | timeout => "timeout"

end TransferError

/-! ## Failures of an operation -/

/-- The part of a transfer that failed. -/
inductive Stage where
  | setup
  | data
  | status
  /-- A poll of the interrupt endpoint. -/
  | interrupt
deriving DecidableEq, Inhabited

/-- The name of a stage in messages. -/
def Stage.name : Stage → String
  | setup => "Setup"
  | data => "Data"
  | status => "Status"
  | interrupt => "Interrupt"

/-- Why an operation of the driver failed. -/
inductive UsbError where
  /-- The USB block was not switched on. -/
  | powerOnFailed
  /-- The identity register belongs to another kind of controller. -/
  | unknownController (id : Word)
  | noDevice
  | portEnableTimeout
  | transfer (stage : Stage) (cause : TransferError)
  /-- The configuration has no interrupt-IN endpoint. -/
  | noInterruptEndpoint
  | notEnumerated
deriving DecidableEq, Inhabited

namespace UsbError

/-- The failed exchange behind the error, if there is one. -/
def exchangeError? : UsbError → Option TransferError
  | transfer _ cause => some cause
  | _ => none

def isTransient (e : UsbError) : Bool :=
  e.exchangeError?.any TransferError.isTransient

/-- The fixed text of an error, without its details. -/
def text : UsbError → String
  | powerOnFailed => "USB block power-on was refused"
  | unknownController _ => "not a DWC2 USB controller"
  | noDevice => "no USB device connected"
  | portEnableTimeout => "USB port did not enable after reset"
  | transfer .setup _ => "USB control transfer failed in SETUP stage"
  | transfer .data _ => "USB control transfer failed in DATA stage"
  | transfer .status _ => "USB control transfer failed in STATUS stage"
  | transfer .interrupt _ => "USB interrupt transfer failed"
  | noInterruptEndpoint => "USB device has no interrupt-IN endpoint"
  | notEnumerated => "USB device is not enumerated"

/-- The message of an error, with the identity or the cause it carries. -/
def message : UsbError → String
  | unknownController id =>
    "not a DWC2 USB controller (id " ++ Word.hex id ++ ")"
  | transfer stage cause => stage.name ++ " stage: " ++ cause.message
  | e => e.text

end UsbError

end UsbHost
