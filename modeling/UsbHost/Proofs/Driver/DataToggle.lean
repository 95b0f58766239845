import UsbHost.Proofs.Driver.Programming

/-!
# The data toggle

The identifier of the next report's packet is DATA0 or DATA1.  Which of them it
is depends on how many reports have been received since an endpoint was last
located, and on nothing else that has happened in between.  The count is not
part of what the driver keeps: it is read off the runs of the operations.

## Main results

* `enumerate_eq`, `start_eq` — where an endpoint is located.
* `Operation.milestone` — what an operation has done to the count.
* `toggle_step` — what one operation does to the toggle.
* `Tallied` — the count, after any number of operations.
* `toggle_counts_reports` — the toggle is the parity of the count, and polls go
  out with it.
-/

namespace UsbHost

open Run

variable {σ : Type}

/-! ## Locating an endpoint -/

namespace Host

/-- The first part of an enumeration: up to the configuration. -/
def describe (host : Host σ) : HostM σ (List Byte) := do
  modify ({ · with enumerated := false })
  let (_, head) ← host.readDescriptor .device 8
  let ep0MaxPacket := ep0PacketSize (byteAt head 7)
  modify ({ · with ep0MaxPacket })
  host.resetBus
  modify ({ · with ep0MaxPacket })
  host.core.delay host.settings.resetSettle
  let _ ← host.request (.setAddress assignedAddress) []
  modify ({ · with address := assignedAddress })
  host.core.delay host.settings.addressSettle
  let _ ← host.readDescriptor .device 18
  let (count, buffer) ← host.readDescriptor .configuration 64
  (Run.slice buffer 0 count : Run Register σ (List Byte))

/-- The second part: locating the endpoint and selecting the configuration. -/
def adopt (host : Host σ) (configuration : List Byte) : HostM σ Unit :=
  match HidEndpoint.find? configuration with
  | none => throw .noInterruptEndpoint
  | some hid => do
    modify ({ · with hid := some hid, toggle := false })
    let value := configurationValue configuration
    let _ ← host.request (.setConfiguration value) []
    modify ({ · with enumerated := true })

theorem enumerate_eq (host : Host σ) :
    host.enumerate = host.describe >>= host.adopt := by
  symm
  simp only [describe, bind_assoc]
  rfl

/-- What comes before the enumeration when the driver starts. -/
def discover (host : Host σ) (power : PowerSwitch σ) (timeout : Duration) :
    HostM σ Unit := do
  host.init power
  if !(← host.awaitDevice timeout) then
    throw .noDevice
  host.resetBus

theorem start_eq (host : Host σ) (power : PowerSwitch σ) (timeout : Duration) :
    host.start power timeout = (do
      host.discover power timeout
      host.enumerate
      tryCatch host.setIdle fun _ => pure ()) := by
  unfold start discover
  simp only [bind_assoc]
  congr 1
  funext _
  congr 1
  funext found
  cases found with
  | false => simp
  | true => simp

end Host

/-! ## Milestones -/

/-- What an operation can do to the count of reports. -/
inductive Milestone where
  /-- Nothing. -/
  | none
  /-- A report has been received. -/
  | received
  /-- An endpoint has been located, and counting begins anew. -/
  | located
deriving DecidableEq

namespace Milestone

def count : Milestone → Nat → Nat
  | none, k => k
  | received, k => k + 1
  | located, _ => 0

def toggle : Milestone → Bool → Bool
  | none, b => b
  | received, b => !b
  | located, _ => false

theorem toggle_ite (c : Bool) (m : Milestone) (b : Bool) :
    (if c then m else none).toggle b = if c then m.toggle b else b := by
  cases c with
  | false => rfl
  | true => rfl

/-- The toggle goes with the parity of the count. -/
theorem toggle_parity (m : Milestone) (k : Nat) :
    m.toggle (decide (k % 2 = 1)) = decide (m.count k % 2 = 1) := by
  cases m with
  | none => rfl
  | located => rfl
  | received =>
    show (!decide (k % 2 = 1)) = decide ((k + 1) % 2 = 1)
    rw [← decide_not, decide_eq_decide]
    omega

end Milestone

/-- Whether a poll from here receives a report. -/
def Host.receives (host : Host σ) (s : Link) (report : List Byte)
    (patience : Nat) (w : World Register σ) : Bool :=
  ((host.readReport report).run s).returns patience w
    fun r _ => r.1.result.isOk

/-- Whether an enumeration from here locates an endpoint. -/
def Host.locates (host : Host σ) (s : Link) (patience : Nat)
    (w : World Register σ) : Bool :=
  (host.describe.run.run s).returns patience w fun r _ =>
    match r.1 with
    | .ok configuration => (HidEndpoint.find? configuration).isSome
    | .error _ => false

/-- Whether an enumeration at the end of a start from here locates an
endpoint. -/
def Host.startLocates (host : Host σ) (power : PowerSwitch σ)
    (timeout : Duration) (s : Link) (patience : Nat) (w : World Register σ) :
    Bool :=
  ((host.discover power timeout).run.run s).returns patience w fun r w' =>
    r.1.isOk && host.locates r.2 patience w'

/-- What an operation from here does to the count. -/
def Operation.milestone (host : Host σ) (driver : Driver) (patience : Nat)
    (w : World Register σ) : Operation σ → Milestone
  | .readReport report =>
    if host.receives driver.state report patience w then .received else .none
  | .poll =>
    let report := List.replicate reportLength 0
    if host.receives driver.state report patience w then .received else .none
  | .enumerate =>
    if host.locates driver.state patience w then .located else .none
  | .start power timeout =>
    if host.startLocates power timeout driver.state patience w then .located
    else .none
  | _ => .none

/-! ## One operation -/

section Step

open HostM

variable {host : Host σ} {n : Nat} {w : World Register σ}

theorem keeps_describe {b : Bool} :
    Keeps (fun s => s.toggle = b) host.describe := by
  unfold Host.describe
  refine .bind (.modify fun _ h => h) fun _ => ?_
  refine .bind (keeps_request _ _) fun head => ?_
  refine .bind (.modify fun _ h => h) fun _ => ?_
  refine .bind (keeps_resetBus fun _ _ h => h) fun _ => ?_
  refine .bind (.modify fun _ h => h) fun _ => .bind (.lift _) fun _ => ?_
  refine .bind (keeps_request _ _) fun _ => .bind (.modify fun _ h => h) ?_
  refine fun _ => .bind (.lift _) fun _ => .bind (keeps_request _ _) fun _ => ?_
  exact .bind (keeps_request _ _) fun read => .lift _

theorem keeps_discover {b : Bool} (power : PowerSwitch σ)
    (timeout : Duration) :
    Keeps (fun s => s.toggle = b) (host.discover power timeout) := by
  unfold Host.discover
  refine .bind (keeps_init power) fun _ => .bind (.lift _) fun found => ?_
  cases found with
  | false => exact .throw _
  | true => exact keeps_resetBus fun _ _ h => h

/-- Once an endpoint has been located, the next report is expected as DATA0. -/
theorem yields_adopt (configuration : List Byte) (s : Link)
    (w : World Register σ) :
    ((host.adopt configuration).run.run s).Yields False w fun r _ =>
      r.2.toggle =
        if (HidEndpoint.find? configuration).isSome then false
        else s.toggle := by
  unfold Host.adopt
  cases HidEndpoint.find? configuration with
  | none => exact .pure rfl
  | some hid =>
    have hkeeps : Keeps (fun s => s.toggle = false) (do
        let value := configurationValue configuration
        let _ ← host.request (.setConfiguration value) []
        modify ({ · with enumerated := true })) :=
      .bind (keeps_request _ _) fun _ => .modify fun _ h => h
    dsimp only
    rw [run_bind, run_modify, pure_bind]
    exact hkeeps _ w rfl

/-- An enumeration sets the toggle back just if it locates an endpoint. -/
theorem toggle_enumerate {s : Link} {r : Except UsbError Unit × Link}
    {w' : World Register σ} (h : host.enumerate.run.run s n w = .ok r w') :
    r.2.toggle = if host.locates s n w then false else s.toggle := by
  rw [Host.enumerate_eq, run_bind] at h
  obtain ⟨⟨described, s₁⟩, v, hdescribe, hadopt⟩ := bind_eq_ok.1 h
  have hkept : s₁.toggle = s.toggle :=
    (keeps_describe s w rfl).of_run hdescribe
  unfold Host.locates
  rw [returns_of_ok hdescribe]
  cases described with
  | ok configuration =>
    rw [← hkept]
    exact (yields_adopt configuration s₁ v).of_run hadopt
  | error e =>
    cases hadopt
    exact hkept

theorem toggle_start {power : PowerSwitch σ} {timeout : Duration} {s : Link}
    {r : Except UsbError Unit × Link} {w' : World Register σ}
    (h : (host.start power timeout).run.run s n w = .ok r w') :
    r.2.toggle =
      if host.startLocates power timeout s n w then false else s.toggle := by
  rw [Host.start_eq, run_bind] at h
  obtain ⟨⟨discovered, s₁⟩, v, hdiscover, hrest⟩ := bind_eq_ok.1 h
  have hkept : s₁.toggle = s.toggle :=
    (keeps_discover power timeout s w rfl).of_run hdiscover
  unfold Host.startLocates
  rw [returns_of_ok hdiscover, ← hkept]
  cases discovered with
  | error e =>
    cases hrest
    rfl
  | ok _ =>
    dsimp only at hrest
    rw [run_bind] at hrest
    obtain ⟨⟨enumerated, s₂⟩, v', henumerate, hrest⟩ := bind_eq_ok.1 hrest
    have hstep := toggle_enumerate henumerate
    cases enumerated with
    | error e =>
      cases hrest
      exact hstep
    | ok _ =>
      have hidle : Keeps (fun s => s.toggle = s₂.toggle)
          (tryCatch host.setIdle fun _ => pure ()) := keeps_trySetIdle
      rw [(hidle s₂ v' rfl).of_run hrest]
      exact hstep

/-- A poll moves the toggle just if it receives a report. -/
theorem toggle_readReport {s : Link} {report : List Byte}
    {r : Moved UsbError × Link} {w' : World Register σ}
    (h : (host.readReport report).run s n w = .ok r w') :
    r.2.toggle =
      if host.receives s report n w then !s.toggle else s.toggle := by
  have hmoved : ((host.readReport report).run s).Yields False w fun r _ =>
      r.2.toggle = if r.1.result.isOk then !s.toggle else s.toggle := by
    rw [Host.run_readReport]
    cases s.pollable? with
    | none => exact .pure rfl
    | some hid =>
      refine .bind_any fun moved w' => ?_
      cases moved.result with
      | ok count => exact .pure rfl
      | error e => exact .pure rfl
  unfold Host.receives
  rw [returns_of_ok h]
  exact hmoved.of_run h

end Step

/-! ## Polls -/

/-- The buffer that an operation polls with, if it polls. -/
def Operation.report? : Operation σ → Option (List Byte)
  | .readReport report => some report
  | .poll => some (List.replicate reportLength 0)
  | _ => none

section Polls

variable {host : Host σ} {driver : Driver} {operation : Operation σ}
  {report : List Byte} {n : Nat} {w w' : World Register σ}

theorem slice_leaves {α : Type} (xs : List α) (start stop : Nat)
    (w : World Register σ) :
    (Run.slice xs start stop : Run Register σ (List α)).leaves n w = w := by
  unfold Run.slice
  split
  · rfl
  · rfl

/-- What a pad makes of what it has read, it makes without the hardware. -/
theorem leaves_poll (pad : Gamepad) (s : Link) :
    ((pad.poll host).run s).leaves n w =
      ((host.readReport (List.replicate reportLength 0)).run s).leaves n w := by
  rw [Gamepad.run_poll]
  refine leaves_bind (fun r v => ?_) w
  dsimp only
  cases r.1.result with
  | ok count =>
    dsimp only
    rw [leaves_bind fun _ _ => rfl]
    exact slice_leaves _ _ _ v
  | error e =>
    dsimp only
    split
    · rfl
    · rfl

theorem poll_reads {pad : Gamepad} {s : Link}
    {r : (Except UsbError (Option Update) × Gamepad) × Link}
    (h : (pad.poll host).run s n w = .ok r w') :
    ∃ moved, (host.readReport (List.replicate reportLength 0)).run s n w =
      .ok (moved, r.2) w' := by
  rw [Gamepad.run_poll] at h
  obtain ⟨⟨moved, s'⟩, v, hread, hrest⟩ := bind_eq_ok.1 h
  refine ⟨moved, ?_⟩
  dsimp only at hrest
  cases hr : moved.result with
  | ok count =>
    rw [hr] at hrest
    obtain ⟨message, u, hslice, hpure⟩ := bind_eq_ok.1 hrest
    have hstill : u = v := by
      rw [← leaves_of_ok hslice, slice_leaves]
    cases hpure
    rw [hread, hstill]
  | error e =>
    rw [hr] at hrest
    dsimp only at hrest
    split at hrest
    · cases hrest
      exact hread
    · cases hrest
      exact hread

/-- An operation that polls does on the hardware what its poll does. -/
theorem leaves_of_polls (h : operation.report? = some report) :
    (operation.perform host driver).leaves n w =
      ((host.readReport report).run driver.state).leaves n w := by
  cases operation with
  | readReport report =>
    cases h
    exact leaves_bind (fun _ _ => rfl) w
  | poll =>
    cases h
    calc _ = ((driver.pad.poll host).run driver.state).leaves n w :=
          leaves_bind (fun _ _ => rfl) w
      _ = _ := leaves_poll driver.pad driver.state
  | _ => exact nomatch h

theorem perform_reads (h : operation.report? = some report)
    {r : Reply × Driver}
    (hrun : operation.perform host driver n w = .ok r w') :
    ∃ moved, (host.readReport report).run driver.state n w =
      .ok (moved, r.2.state) w' := by
  cases operation with
  | readReport report =>
    cases h
    obtain ⟨⟨moved, s⟩, v, hread, hpure⟩ := bind_eq_ok.1 hrun
    cases hpure
    exact ⟨moved, hread⟩
  | poll =>
    cases h
    obtain ⟨⟨polled, s⟩, v, hpoll, hpure⟩ := bind_eq_ok.1 hrun
    cases hpure
    exact poll_reads hpoll
  | _ => exact nomatch h

end Polls

/-! ## What polls program -/

/-- An event may set up a packet only on channel 1, and only with the given
identifier. -/
def Event.Identifies (pid : Pid) : Event Register → Prop
  | .write (.channel c .transferSize) v =>
    c = .interrupt ∧ TransferSize.pid.get ⟨v⟩ = pid
  | _ => True

section Identified

variable {s : Link}

theorem Exchange.Issues.identifies {x : Exchange} {room : Nat}
    (hx : x.channel = .interrupt) {e : Event Register}
    (h : x.Issues s room e) : e.Identifies x.pid := by
  unfold Event.Identifies
  split
  · obtain ⟨hc, rfl⟩ := h
    exact ⟨hc.trans hx, (transferSize_fields x (x.toNat_requested s room)).1⟩
  · trivial

/-- What a poll sets up, it sets up on channel 1 with the identifier that the
toggle says.  If it comes back after having touched the hardware, it has set up
a packet. -/
theorem readReport_identifies (host : Host σ) (s : Link) (report : List Byte)
    (n : Nat) (w : World Register σ) :
    let read := (host.readReport report).run s
    ∃ events, (read.leaves n w).log = events ++ w.log ∧
      (∀ e ∈ events, e.Identifies s.reportPid) ∧
      ∀ r w', read n w = .ok r w' → events ≠ [] →
        ∃ v, .write (.channel .interrupt .transferSize) v ∈ events := by
  dsimp only
  rw [Host.run_readReport]
  cases s.pollable? with
  | none =>
    exact ⟨[], rfl, fun _ he => absurd he List.not_mem_nil,
      fun _ _ _ h => absurd rfl h⟩
  | some hid =>
    let x := Host.pollExchange s hid
    let length := min report.length hid.maxPacketSize.toNat
    let room := min length report.length
    have h : (host.transfer s x report length).Always w
        (fun moved w' => x.Finishes s room w.log moved w')
        (World.Since w.log [] (x.Issues s room)) :=
      always_transfer_issues report length w
    dsimp only
    rw [leaves_bind fun moved v => by cases moved.result <;> rfl]
    cases hrun : host.transfer s x report length n w with
    | ok moved w' =>
      obtain ⟨seen, ⟨events, hlog, hsub, hall⟩, hissued⟩ :=
        h.ok n moved w' hrun
      obtain ⟨hsize, -⟩ := hissued (.inl rfl)
      rw [leaves_of_ok hrun]
      refine ⟨events, hlog, fun e he => ?_, fun _ _ _ _ => ⟨_, hsub hsize⟩⟩
      exact Exchange.Issues.identifies rfl (hall e he)
    | error halt w' =>
      obtain ⟨events, hlog, -, hall⟩ := h.error n halt w' hrun
      refine ⟨events, ?_, fun e he => ?_, fun r v hr => ?_⟩
      · rw [leaves, hrun, hlog]
      · exact Exchange.Issues.identifies rfl (hall e he)
      · obtain ⟨moved, v', hmoved, -⟩ := bind_eq_ok.1 hr
        rw [hrun] at hmoved
        cases hmoved

end Identified

/-! ## Any number of operations -/

/-- What one operation does to the toggle is what it does to the parity of the
count. -/
theorem toggle_step {host : Host σ} {driver : Driver} {operation : Operation σ}
    {n : Nat} {w w' : World Register σ} {r : Reply × Driver}
    (h : operation.perform host driver n w = .ok r w') :
    r.2.state.toggle =
      (operation.milestone host driver n w).toggle driver.state.toggle := by
  have hpolls : ∀ report, operation.report? = some report →
      r.2.state.toggle =
        if host.receives driver.state report n w then !driver.state.toggle
        else driver.state.toggle := by
    intro report hreport
    obtain ⟨moved, hread⟩ := perform_reads hreport h
    exact toggle_readReport hread
  have hdevice : ∀ {p : HostM σ Unit},
      HostM.Keeps (fun s => s.toggle = driver.state.toggle) p →
      Operation.onDevice driver p n w = .ok r w' →
      r.2.state.toggle = driver.state.toggle :=
    fun hp hrun => (yields_onDevice hp driver w rfl).of_run hrun
  have hreply : ∀ {α : Type} (p : Run Register σ α) (reply : α → Reply),
      (do return (reply (← p), driver) : Run Register σ (Reply × Driver)) n w =
        .ok r w' →
      r.2.state.toggle = driver.state.toggle := fun p reply hrun =>
    (yields_reply (I := fun s => s.toggle = driver.state.toggle) p reply driver
      w rfl).of_run hrun
  cases operation with
  | version => exact hreply _ .word h
  | isConnected => exact hreply _ .flag h
  | awaitDevice timeout => exact hreply _ .flag h
  | control setup buffer => exact hreply _ .moved h
  | transfer x buffer length => exact hreply _ .transferred h
  | init power => exact hdevice (keeps_init power) h
  | resetBus => exact hdevice (keeps_resetBus fun _ _ h => h) h
  | setIdle => exact hdevice keeps_setIdle h
  | setInterface interface setting => exact hdevice (keeps_setInterface _ _) h
  | enumerate =>
    obtain ⟨result, -, -, hrun⟩ := run_of_onDevice h
    rw [Operation.milestone, Milestone.toggle_ite]
    exact toggle_enumerate hrun
  | start power timeout =>
    obtain ⟨result, -, -, hrun⟩ := run_of_onDevice h
    rw [Operation.milestone, Milestone.toggle_ite]
    exact toggle_start hrun
  | readReport report =>
    rw [Operation.milestone, Milestone.toggle_ite]
    exact hpolls report rfl
  | poll =>
    rw [Operation.milestone, Milestone.toggle_ite]
    exact hpolls _ rfl

/-- What a driver knows after any number of operations, each of which has come
back with any result, and how many reports have been received since an endpoint
was last located.  Between two operations the world may change in any way. -/
inductive Tallied (host : Host σ) : Driver → Nat → Prop
  | new (pad : Gamepad) : Tallied host { pad } 0
  | perform {driver : Driver} {count : Nat} (operation : Operation σ)
      (patience : Nat) (w w' : World Register σ) (r : Reply × Driver) :
    Tallied host driver count →
    operation.perform host driver patience w = .ok r w' →
    Tallied host r.2
      ((operation.milestone host driver patience w).count count)

theorem Tallied.toggle_eq {host : Host σ} {driver : Driver} {count : Nat}
    (h : Tallied host driver count) :
    driver.state.toggle = decide (count % 2 = 1) := by
  induction h with
  | new pad => rfl
  | perform operation patience w w' r _ hrun ih =>
    rw [toggle_step hrun, ih, Milestone.toggle_parity]

/-- At every point, the toggle is the parity of the number of reports received
since an endpoint was last located.  A poll sets up packets only on channel 1,
with DATA0 or DATA1 as the count is even or odd, and if it comes back after
having touched the hardware, it has set up one.  An operation that changes the
toggle has received a report or located an endpoint. -/
theorem toggle_counts_reports {host : Host σ} {driver : Driver} {count : Nat}
    (h : Tallied host driver count) :
    driver.state.toggle = decide (count % 2 = 1) ∧
      (∀ (operation : Operation σ) report patience w,
        operation.report? = some report →
        let poll := operation.perform host driver
        let pid := if count % 2 = 0 then .data0 else .data1
        ∃ events, (poll.leaves patience w).log = events ++ w.log ∧
          (∀ e ∈ events, e.Identifies pid) ∧
          ∀ r w', poll patience w = .ok r w' → events ≠ [] →
            ∃ v, .write (.channel .interrupt .transferSize) v ∈ events) ∧
      ∀ (operation : Operation σ) patience w r w',
        operation.perform host driver patience w = .ok r w' →
        r.2.state.toggle ≠ driver.state.toggle →
        operation.milestone host driver patience w ≠ .none := by
  refine ⟨h.toggle_eq, ?_, ?_⟩
  · intro operation report patience w hreport
    have hpid : driver.state.reportPid =
        if count % 2 = 0 then .data0 else .data1 := by
      unfold Link.reportPid
      rw [h.toggle_eq]
      rcases Nat.mod_two_eq_zero_or_one count with hc | hc
      · rw [hc]
        rfl
      · rw [hc]
        rfl
    obtain ⟨events, hlog, hall, hset⟩ :=
      readReport_identifies host driver.state report patience w
    refine ⟨events, ?_, hpid ▸ hall, fun r w' hrun => ?_⟩
    · rw [leaves_of_polls hreport, hlog]
    · obtain ⟨moved, hread⟩ := perform_reads hreport hrun
      exact hset _ w' hread
  · intro operation patience w r w' hrun hchanged hnone
    rw [toggle_step hrun, hnone] at hchanged
    exact hchanged rfl

/-- The driver is asked to bring up what is on the bench. -/
def benchStart : Operation (Bench.Environment × Bench.TickingClock) :=
  .start PowerSwitch.alwaysOn (.ofMillis 100)

/-- The bench with the gamepad, which now has a report to hand out. -/
def benchReporting :
    World Register (Bench.Environment × Bench.TickingClock) :=
  let environment := startedBench.env.1.mapController fun k =>
    { k with device.reports := [[1, 2, 3]] }
  ⟨(environment, startedBench.env.2), startedBench.log⟩

/-- After a start and one report that has been received, the count is one, and
the next poll asks for DATA1. -/
theorem gamepad_polled_once :
    let driver : Driver := { state := { gamepadState with toggle := true } }
    let poll := (Operation.readReport (List.replicate 8 0)).perform benchHost
      driver
    Tallied benchHost driver 1 ∧ driver.state.toggle = decide (1 % 2 = 1) ∧
      ∃ events, (poll.leaves 20 startedBench).log =
          events ++ startedBench.log ∧
        (∀ e ∈ events, e.Identifies .data1) ∧
        ∃ v, .write (.channel .interrupt .transferSize) v ∈ events := by
  intro driver poll
  let read : Operation (Bench.Environment × Bench.TickingClock) :=
    .readReport (List.replicate 8 0)
  have hstarted : (benchStart.perform benchHost {}).returns 20 ⟨({}, {}), []⟩
      (fun r _ => decide (r.2 = ⟨gamepadState, {}⟩)) = true := by
    decide +kernel
  have hlocated :
      benchStart.milestone benchHost {} 20 ⟨({}, {}), []⟩ = .located := by
    decide +kernel
  have hread : (read.perform benchHost ⟨gamepadState, {}⟩).returns 20
      benchReporting (fun r _ => decide (r.2 = driver)) = true := by
    decide +kernel
  have hreceived : read.milestone benchHost ⟨gamepadState, {}⟩ 20
      benchReporting = .received := by
    decide +kernel
  obtain ⟨⟨_, started⟩, w, hrun, hdriver⟩ := exists_of_returns hstarted
  obtain rfl : started = ⟨gamepadState, {}⟩ := of_decide_eq_true hdriver
  have htallied := Tallied.perform benchStart 20 _ w _ (.new {}) hrun
  rw [hlocated] at htallied
  obtain ⟨⟨_, received⟩, w', hrun', hdriver'⟩ := exists_of_returns hread
  obtain rfl : received = driver := of_decide_eq_true hdriver'
  have htallied' := Tallied.perform read 20 _ w' _ htallied hrun'
  rw [hreceived] at htallied'
  obtain ⟨htoggle, hpolls, -⟩ := toggle_counts_reports htallied'
  obtain ⟨events, hlog, hall, hset⟩ := hpolls read _ 20 startedBench rfl
  refine ⟨htallied', htoggle, events, hlog, hall, ?_⟩
  have hpolled : poll.returns 20 startedBench (fun _ w =>
      decide (w.log.length ≠ startedBench.log.length)) = true := by
    decide +kernel
  obtain ⟨r, v, hpoll, hlength⟩ := exists_of_returns hpolled
  refine hset r v hpoll fun hnone => ?_
  rw [leaves_of_ok hpoll, hnone, List.nil_append] at hlog
  exact of_decide_eq_true hlength (congrArg List.length hlog)

end UsbHost
