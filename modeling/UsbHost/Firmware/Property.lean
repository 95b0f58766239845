import UsbHost.Bits.Word

/-!
# Property messages

A request to the board's firmware is eight words: the size of the message, a
request code, one tag with its sizes and its two values, and the end tag.  The
firmware answers by overwriting the message.
-/

namespace UsbHost

/-- A property message with a single tag of two values. -/
structure PropertyMessage where
  words : Vector Word 8
deriving DecidableEq

namespace PropertyMessage

/-- The message of eight zero words. -/
def blank : PropertyMessage := ⟨Vector.replicate 8 0⟩

/-- The tag that sets the power state of a device. -/
def powerTag : Word := 0x00028001

/-- The firmware's number of the USB controller. -/
def usbController : Word := 3

/-- Asks for a device to be switched on or off, and for the reply to wait until
that is done. -/
def switchPower (device : Word) (on : Bool) : PropertyMessage :=
  ⟨#v[32, 0, powerTag, 8, 8, device, if on then 3 else 2, 0]⟩

/-- What a successful reply carries in place of the request code. -/
def success : Word := 0x80000000

/-- The firmware's verdict on the whole message. -/
def responseCode (m : PropertyMessage) : Word := m.words[1]

/-- The word that holds the size of the tag's reply. -/
def tagSize (m : PropertyMessage) : Word := m.words[4]

/-- Whether the firmware has filled in the tag. -/
def hasTagReply (m : PropertyMessage) : Bool := m.tagSize.getLsbD 31

/-- Whether the device has power according to the reply. -/
def powered (m : PropertyMessage) : Bool := m.words[6].getLsbD 0

end PropertyMessage

/-! ## Failures -/

/-- Why a request to the firmware failed. -/
inductive MailboxError where
  /-- The mailbox stayed full or empty for too long. -/
  | timeout
  /-- The reply is not a success, or leaves the tag unanswered; the word that
  says so. -/
  | rejected (code : Word)
deriving DecidableEq, Inhabited

namespace MailboxError

/-- The fixed text of an error. -/
def text : MailboxError → String
  | timeout => "mailbox timed out"
  | rejected _ => "mailbox request rejected by firmware"

def message : MailboxError → String
  | timeout => text timeout
  | rejected code => "mailbox request rejected (" ++ Word.hex code ++ ")"

end MailboxError

end UsbHost
