import UsbHost.Host.Exchange

/-!
# Polling for reports

One poll of the interrupt endpoint.  The data toggle moves on only with a
report that has been received.
-/

namespace UsbHost

namespace Link

/-- The endpoint that can be polled, if the device is enumerated and has
one. -/
def pollable? (s : Link) : Option HidEndpoint :=
  s.hid.filter fun hid => s.enumerated && hid.number ≠ 0

end Link

namespace Host

variable {σ : Type} (host : Host σ)

/-- The exchange that polls an endpoint. -/
def pollExchange (s : Link) (hid : HidEndpoint) : Exchange :=
  { channel := .interrupt, endpoint := hid.number, direction := .toHost,
    type := .interrupt, pid := s.reportPid }

/-- Polls the endpoint once for a report, which goes to the front of the
buffer. -/
def readReport (report : List Byte) :
    StateT Link (Run Register σ) (Moved UsbError) := do
  let s ← get
  match s.pollable? with
  | none => return ⟨.error .notEnumerated, report⟩
  | some hid =>
    let moved ← host.transfer s (pollExchange s hid) report
      (min report.length hid.maxPacketSize.toNat)
    match moved.result with
    | .ok count =>
      set { s with toggle := !s.toggle }
      return ⟨.ok count, moved.buffer⟩
    | .error cause => return ⟨.error (.transfer .interrupt cause), moved.buffer⟩

end Host

end UsbHost
