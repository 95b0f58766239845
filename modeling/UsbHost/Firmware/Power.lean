import UsbHost.Firmware.Mailbox
import UsbHost.Host.Failure

/-!
# Power through the firmware

The USB block stays without power until the firmware has been asked to switch
it on and has confirmed that it did.
-/

namespace UsbHost

/-- What a reply says about the power of the device, or why it does not
count. -/
def PropertyMessage.reportedPower (reply : PropertyMessage) :
    Except MailboxError Bool :=
  if reply.responseCode ≠ success then .error (.rejected reply.responseCode)
  else if reply.hasTagReply then .ok reply.powered
  else .error (.rejected reply.tagSize)

variable {M : Type → Type} [Monad M]

/-- Asks the firmware to switch a device on or off; returns the state it ended
up in. -/
def switchPower (mailbox : Mailbox M) (device : Word) (on : Bool) :
    M (Except MailboxError Bool) := do
  match ← mailbox propertyChannel (.switchPower device on) with
  | .ok reply => return reply.reportedPower
  | .error e => return .error e

/-- Switches on the USB block; anything but a confirmation is a failure. -/
def switchOnUsb (mailbox : Mailbox M) : M (Except UsbError Unit) := do
  match ← switchPower mailbox PropertyMessage.usbController true with
  | .ok true => return .ok ()
  | _ => return .error .powerOnFailed

end UsbHost
