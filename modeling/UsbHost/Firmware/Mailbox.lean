import UsbHost.Firmware.Property
import UsbHost.Machine.Waiting

/-!
# The mailbox

A message is handed over by writing its address, with the channel in the low
four bits, to a register, and the reply is announced by the same word in
another.  Replies to other requests are dropped.
-/

namespace UsbHost

/-- A way to the firmware: takes a message on a channel and returns the
reply. -/
abbrev Mailbox (M : Type → Type) :=
  Byte → PropertyMessage → M (Except MailboxError PropertyMessage)

/-- The channel of property messages. -/
def propertyChannel : Byte := 8

/-! ## The registers -/

/-- The registers of the mailbox. -/
inductive MailboxRegister where
  | read
  | status
  | write
deriving DecidableEq

/-- The distance of a register from the mailbox's base address. -/
def MailboxRegister.offset : MailboxRegister → Nat
  | read => 0x00
  | status => 0x18
  | write => 0x20

/-- The bit of the status register that forbids writing. -/
def mailboxFull : Word := 0x80000000

/-- The bit of the status register that forbids reading. -/
def mailboxEmpty : Word := 0x40000000

/-- How long the mailbox may stay full or empty. -/
def mailboxTimeout : Duration := .ofMillis 100

/-- The word that stands for a message at an address: the low four bits of the
address are free for the channel. -/
def mailboxWord (address : Word) (channel : Byte) : Word :=
  (address &&& ~~~0xF) ||| (channel.setWidth 32 &&& 0xF)

/-! ## Calls -/

namespace Machine

variable {σ : Type} (m : Machine MailboxRegister σ)

/-- Waits while a bit of the status register is set; returns whether it was
cleared in time.  Messages to a log are left out here as everywhere, and with
the message about a timeout the reading of the status register that it shows. -/
def waitWhileStatus (busy : Word) : Run MailboxRegister σ Bool := do
  let deadline ← m.deadlineAfter mailboxTimeout
  Run.loop (fun _ => do
    if (← m.read .status) &&& busy = 0 then
      return .inr true
    if ← m.expired deadline then
      return .inr false
    return .inl ()) ()

/-- Takes replies until one is `word`; returns whether it came in time. -/
def awaitReply (word : Word) : Run MailboxRegister σ Bool :=
  Run.loop (fun _ => do
    if !(← m.waitWhileStatus mailboxEmpty) then
      return .inr false
    if (← m.read .read) = word then
      return .inr true
    return .inl ()) ()

/-- Announces the word of a message and waits for its reply. -/
def exchangeWord (word : Word) :
    Run MailboxRegister σ (Except MailboxError Unit) := do
  if !(← m.waitWhileStatus mailboxFull) then
    return .error .timeout
  m.write .write word
  if ← m.awaitReply word then
    return .ok ()
  else
    return .error .timeout

/-- The mailbox behind the registers, for messages kept at `address`.  The
reply is what `collect` finds there afterwards. -/
def mailbox (address : Word)
    (collect : PropertyMessage → Run MailboxRegister σ PropertyMessage) :
    Mailbox (Run MailboxRegister σ) := fun channel message => do
  match ← m.exchangeWord (mailboxWord address channel) with
  | .ok _ => return .ok (← collect message)
  | .error e => return .error e

end Machine

end UsbHost
