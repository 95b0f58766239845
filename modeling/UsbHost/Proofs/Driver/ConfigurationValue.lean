import UsbHost.Proofs.Driver.DataToggle
import UsbHost.Proofs.Machine.Faultless
import UsbHost.Proofs.Wire.EndpointSearch
import UsbHost.Proofs.Wire.Setup

/-!
# The configuration that is selected

An enumeration reads the front of a configuration, looks for an endpoint in it
and selects the configuration by its value.  The value stands in byte 5 of the
header, which has nine bytes; where fewer than nine have been read, the value is
1, also if byte 5 is there.  The search for the endpoint needs no header, only
an endpoint record of seven bytes, so it can succeed where the value is not
taken from the bytes that have been read.

## Main results

* `configurationValue_eq` — the value that selects a configuration.
* `run_adopt` — what is done with a configuration that has an endpoint.
* `selected_configuration` — the request that an enumeration issues, and when it
  carries byte 5.
-/

namespace UsbHost

open Run HostM

/-! ## The value -/

/-- The value is byte 5 if there is a whole header, and 1 otherwise. -/
theorem configurationValue_eq (configuration : List Byte) :
    configurationValue configuration =
      if 9 ≤ configuration.length then byteAt configuration 5 else 1 := by
  unfold configurationValue Layout.readFront?
  by_cases h : 9 ≤ configuration.length
  · simp [h, ConfigurationHeader.layout]
  · simp [h, ConfigurationHeader.layout]

/-- The value is byte 5 just if there is a whole header, or the byte happens to
be 1. -/
theorem configurationValue_eq_byte_iff (configuration : List Byte) :
    configurationValue configuration = byteAt configuration 5 ↔
      9 ≤ configuration.length ∨ byteAt configuration 5 = 1 := by
  rw [configurationValue_eq]
  by_cases h : 9 ≤ configuration.length
  · simp [h]
  · simp [h, eq_comm]

/-- A configuration in which an endpoint is found has the bytes of an endpoint
record. -/
theorem length_of_find? {configuration : List Byte} {hid : HidEndpoint}
    (h : HidEndpoint.find? configuration = some hid) :
    7 ≤ configuration.length := by
  obtain ⟨earlier, r, later, hsplit, -, ⟨-, hlong, -⟩, -⟩ :=
    HidEndpoint.ofRecords?_eq_some_iff.1 h
  have hmem : r ∈ records configuration := by
    rw [hsplit]
    exact List.mem_append_right earlier List.mem_cons_self
  exact Nat.le_trans hlong (length_le_of_mem hmem)

/-! ## The request -/

variable {σ : Type}

/-- The last step of an enumeration: the request that selects a configuration,
and what is known after it. -/
def Host.select (host : Host σ) (located : Link) (value : Byte) :
    Run Register σ (Except UsbError Unit × Link) := do
  let moved ← host.control located (.setConfiguration value) []
  match moved.result with
  | .ok _ => return (.ok (), { located with enumerated := true })
  | .error e => return (.error e, located)

/-- What is done with a configuration that has an endpoint: it is located, and
the configuration is selected. -/
theorem run_adopt (host : Host σ) (known : Link) {configuration : List Byte}
    {hid : HidEndpoint} (h : HidEndpoint.find? configuration = some hid) :
    (host.adopt configuration).run.run known =
      host.select { known with hid := some hid, toggle := false }
        (configurationValue configuration) := by
  unfold Host.adopt Host.select
  rw [h]
  dsimp only
  rw [run_bind, run_modify, pure_bind]
  dsimp only
  rw [run_bind, Host.request, run_bind, run_get, pure_bind]
  dsimp only
  rw [run_lift_bind, bind_assoc]
  congr 1
  funext moved
  cases moved.result with
  | ok count => rfl
  | error e => rfl

/-- Once an enumeration has read a configuration with an endpoint, it issues the
request that selects it.  The request carries byte 5 of what has been read if
that is at least nine bytes long, and 1 if it is shorter.  At least seven bytes
have been read then, so there is a byte 5, and the request names it just if the
header is complete or the byte is 1. -/
theorem selected_configuration {host : Host σ} {s known : Link} {n : Nat}
    {w v : World Register σ} {configuration : List Byte} {hid : HidEndpoint}
    (hread : host.describe.run.run s n w = .ok (.ok configuration, known) v)
    (hfound : HidEndpoint.find? configuration = some hid) :
    let value :=
      if 9 ≤ configuration.length then byteAt configuration 5 else 1
    host.enumerate.run.run s n w =
        host.select { known with hid := some hid, toggle := false } value n v ∧
      (SetupPacket.setConfiguration value).bytes =
        [0x00, 0x09, value, 0, 0, 0, 0, 0] ∧
      7 ≤ configuration.length ∧
      (value =
          (if 6 ≤ configuration.length then byteAt configuration 5 else 1) ↔
        9 ≤ configuration.length ∨ byteAt configuration 5 = 1) := by
  intro value
  have hvalue : configurationValue configuration = value :=
    configurationValue_eq configuration
  have hlong := length_of_find? hfound
  refine ⟨?_, SetupPacket.bytes_setConfiguration value, hlong, ?_⟩
  · rw [Host.enumerate_eq, run_bind, bind_of_ok hread]
    dsimp only
    rw [run_adopt host known hfound, hvalue]
  · rw [← hvalue, if_pos (by omega)]
    exact configurationValue_eq_byte_iff configuration

/-- The bench with a device whose configuration is an endpoint record and no
more. -/
def benchHeaderless :
    World Register (Bench.Environment × Bench.TickingClock) :=
  let environment := startedBench.env.1.mapController fun k =>
    { k with device.configurationDescriptor := [7, 5, 0x81, 3, 32, 2, 4] }
  ⟨(environment, startedBench.env.2), startedBench.log⟩

/-- Of an endpoint record without a header, byte 5 is 2, but the configuration
that is selected is 1. -/
theorem headerless_configuration_selected :
    let configuration : List Byte := [7, 5, 0x81, 3, 32, 2, 4]
    ∃ known v, benchHost.describe.run.run gamepadState 20 benchHeaderless =
        .ok (.ok configuration, known) v ∧
      HidEndpoint.find? configuration = some ⟨1, 0x220, 0⟩ ∧
      benchHost.enumerate.run.run gamepadState 20 benchHeaderless =
        benchHost.select { known with hid := some ⟨1, 0x220, 0⟩ } 1 20 v ∧
      byteAt configuration 5 = 2 := by
  intro configuration
  have hdescribes : (benchHost.describe.run.run gamepadState).returns 20
      benchHeaderless (fun r _ => decide (r = (.ok configuration,
        { gamepadState with enumerated := false }))) = true := by
    decide +kernel
  obtain ⟨r, v, hread, hr⟩ := exists_of_returns hdescribes
  rw [of_decide_eq_true hr] at hread
  have hfound : HidEndpoint.find? configuration = some ⟨1, 0x220, 0⟩ := by
    decide
  obtain ⟨hselects, -⟩ := selected_configuration hread hfound
  exact ⟨_, v, hread, hfound, hselects, rfl⟩

end UsbHost
