import UsbHost.Core.Register
import UsbHost.Machine.Basic

/-!
# Traces

A readable form of what happened on a bus, one line per event.  Readings of the
clock are left out, and equal readings of one register in a row share a line.
-/

namespace UsbHost.Bench

/-- Hexadecimal digits without leading zeros. -/
def hexDigits (n : Nat) : String := String.ofList (Nat.toDigits 16 n)

/-- The digits filled up with zeros to a width. -/
def paddedHex (width n : Nat) : String :=
  let digits := Nat.toDigits 16 n
  String.ofList (List.replicate (width - digits.length) '0' ++ digits)

/-- The value of a hexadecimal digit of either case. -/
def hexDigitValue? (c : Char) : Option Nat :=
  if c.isDigit then some (c.toNat - '0'.toNat)
  else if 'a' ≤ c ∧ c ≤ 'f' then some (c.toNat - 'a'.toNat + 10)
  else if 'A' ≤ c ∧ c ≤ 'F' then some (c.toNat - 'A'.toNat + 10)
  else none

/-- Reads hexadecimal digits. -/
def hexValue? (s : String) : Option Nat :=
  s.toList.foldlM (fun n c => return n * 16 + (← hexDigitValue? c)) 0

/-- An event and how often it happened in a row. -/
structure TraceEntry where
  event : Event Register
  count : Nat := 1
deriving DecidableEq

namespace TraceEntry

/-- The line of an entry. -/
def line (e : TraceEntry) : String :=
  match e.event with
  | .read r v =>
    "r" ++ hexDigits r.offset ++ "=" ++ hexDigits v.toNat ++
      (if e.count = 1 then "" else "*" ++ toString e.count)
  | .write r v => "w" ++ hexDigits r.offset ++ "=" ++ hexDigits v.toNat
  | .barrier => "b"
  | .clock t => "t" ++ t.text
  | .pause d => "d" ++ d.text

end TraceEntry

/-- Puts an event in front of the entries of what followed it. -/
def precede (later : List TraceEntry) (event : Event Register) :
    List TraceEntry :=
  match event, later with
  | .clock _, _ => later
  | .read r v, next :: rest =>
    if next.event = .read r v then
      { next with count := next.count + 1 } :: rest
    else { event := .read r v } :: later
  | _, _ => { event } :: later

/-- The lines of a log whose latest event comes first, in order of time. -/
def traceLines (log : List (Event Register)) : List String :=
  (log.foldl precede []).map (·.line)

end UsbHost.Bench
