import UsbHost.Firmware.Power

/-!
# A bench for the mailbox registers

Three registers that change on their own at given readings of the clock.
-/

namespace UsbHost.Bench

/-- What happens just before a reading of the clock. -/
structure MailboxEvent where
  /-- The status register takes this value. -/
  status : Option Word := none
  /-- The read register takes the value of the write register, xor this. -/
  echo : Option Word := none

/-- The registers and their clock. -/
structure MailboxBench where
  status : Word := 0
  read : Word := 0
  write : Word := 0
  /-- Whether the write register has been written. -/
  written : Bool := false
  /-- Readings of the clock so far. -/
  readings : Nat := 0
  tick : Duration := .zero
  /-- One event per reading. -/
  script : List MailboxEvent := []

namespace MailboxBench

/-- Lets an event happen. -/
def occur (b : MailboxBench) (e : MailboxEvent) : MailboxBench :=
  { b with
    status := e.status.getD b.status
    read :=
      match e.echo with
      | some x => b.write ^^^ x
      | none => b.read }

/-- The machine of the bench. -/
def machine : Machine MailboxRegister MailboxBench where
  bus :=
    { read := fun r b =>
        match r with
        | .read => (b.read, b)
        | .status => (b.status, b)
        | .write => (b.write, b)
      write := fun r v b =>
        match r with
        | .read => { b with read := v }
        | .status => { b with status := v }
        | .write => { b with write := v, written := true } }
  clock :=
    { now := fun b =>
        let time := Duration.ofNanos (b.tick.nanos * b.readings)
        let b :=
          match b.script with
          | [] => b
          | e :: rest => { b.occur e with script := rest }
        (time, { b with readings := b.readings + 1 }) }

/-- Where the message lies. -/
def messageAddress : Word := 0x10000

/-- The mailbox of the bench; nobody fills in the reply. -/
def mailbox : Mailbox (Run MailboxRegister MailboxBench) :=
  machine.mailbox messageAddress pure

end MailboxBench

end UsbHost.Bench
