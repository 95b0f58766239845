import UsbHost.Firmware.Power

/-!
# Scripted firmware

A firmware that treats every message in the same way, and a record of what it
was asked.
-/

namespace UsbHost.Bench

/-- How the firmware answers. -/
inductive FirmwareScript where
  | timeout
  | rejected (code : Word)
  /-- Overwrites words of the message. -/
  | overwrite (words : List (Nat × Word))

/-- Overwrites words of a message; positions outside it are ignored. -/
def overwriteWords (m : PropertyMessage) (words : List (Nat × Word)) :
    PropertyMessage :=
  ⟨words.foldl (fun ws (i, w) => ws.setIfInBounds i w) m.words⟩

/-- The answer to a message. -/
def FirmwareScript.answer (script : FirmwareScript) (m : PropertyMessage) :
    Except MailboxError PropertyMessage :=
  match script with
  | timeout => .error .timeout
  | rejected code => .error (.rejected code)
  | overwrite words => .ok (overwriteWords m words)

/-- A request to the firmware. -/
structure FirmwareCall where
  channel : Byte
  message : PropertyMessage
deriving DecidableEq

/-- A mailbox to scripted firmware. -/
def FirmwareScript.mailbox {M : Type → Type} [Monad M]
    (script : FirmwareScript) : Mailbox M := fun _ message =>
  return script.answer message

/-- A mailbox to scripted firmware that records every call, the first one
first. -/
def FirmwareScript.recordingMailbox (script : FirmwareScript) :
    Mailbox (StateM (List FirmwareCall)) := fun channel message => do
  modify (· ++ [{ channel, message }])
  return script.answer message

/-- Switches on the USB block as often as told, through one mailbox; returns
the results and the calls made. -/
def powerOnRepeatedly (script : FirmwareScript) (times : Nat) :
    List (Except UsbError Unit) × List FirmwareCall :=
  ((List.replicate times ()).mapM fun _ =>
    switchOnUsb script.recordingMailbox).run []

end UsbHost.Bench
