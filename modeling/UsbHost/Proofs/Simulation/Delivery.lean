import UsbHost.Proofs.Simulation.Discovery
import UsbHost.Proofs.Simulation.GivingUp

/-!
# Reports are delivered once, in order

A device hands out a report and forgets it, and the poll that took it is the
only one to see it.  Whatever faults come and go between the polls, and however
the polls interleave with new reports, the updates of the pad are those of the
reports that have left the queue, in their order, and none of them is lost.

## Main results

* `respond_poll` — what a device does with a poll.
* `yields_readReport_poised` — what a reading takes from the queue.
* `polls_of_run`, `poll_returns` — what a poll makes of its reading, and that it
  comes to an end.
* `Delivered.polled` — one poll keeps account of the reports.
* `reports_delivered` — so does any number of polls.
-/

namespace UsbHost

/-- How much of a report a poll of the endpoint keeps. -/
def HidEndpoint.window (hid : HidEndpoint) : Nat :=
  min reportLength hid.maxPacketSize.toNat

namespace Simulation

open Run UsbHost.Bench

/-! ## The device -/

/-- The device has a report for the endpoint, and nothing keeps it back. -/
structure Device.Offers (d : Device) (hid : HidEndpoint) : Prop where
  unforced : d.forced = none
  patient : d.nakBudget = 0
  endpoint : hid.number.setWidth 4 = 1#4
  pending : d.reports ≠ []

/-- What a poll asks of the device depends on the endpoint alone. -/
theorem isPoll_pollExchange {s : Link} (hid : HidEndpoint)
    (buffer : List Byte) (room : Nat) :
    Device.isPoll ((Host.pollExchange s hid).transaction s buffer room) = true ↔
      hid.number.setWidth 4 = 1#4 := by
  simp [Device.isPoll, Exchange.transaction, Exchange.header,
    Host.pollExchange]

/-- A device that is polled where it answers hands out its first report, or
acknowledges nothing and keeps its reports. -/
theorem respond_poll {d : Device} {s : Link} (hid : HidEndpoint)
    (hhonest : d.Honest) (ha : d.address = (s.address.setWidth 7).setWidth 8)
    (buffer : List Byte) (room : Nat) :
    let t := (Host.pollExchange s hid).transaction s buffer room
    (d.Offers hid ∧ ∃ report rest, d.reports = report :: rest ∧
      d.respond t = (.ack report, { d with reports := rest })) ∨
    (¬ d.Offers hid ∧ (∀ data, (d.respond t).1 ≠ .ack data) ∧
      (d.respond t).2.reports = d.reports) := by
  intro t
  rcases Option.eq_none_or_eq_some d.forced with hf | ⟨response, hf⟩
  · have hreached : ¬ t.address.setWidth 8 ≠ d.address := fun hne => hne ha.symm
    have hinterrupt : ¬ (t.type = .control ∧ t.endpoint = 0) :=
      fun hcontrol => nomatch hcontrol.1
    have hpoll : Device.isPoll t = true ↔ hid.number.setWidth 4 = 1#4 :=
      isPoll_pollExchange hid buffer room
    unfold Device.respond
    rw [hf]
    dsimp only
    rw [if_neg hreached, if_neg hinterrupt]
    by_cases hbudget : 0 < d.nakBudget
    · right
      rw [if_pos hbudget]
      refine ⟨fun h => ?_, fun _ => nofun, rfl⟩
      exact absurd h.patient (Nat.ne_of_gt hbudget)
    · rw [if_neg hbudget]
      by_cases hendpoint : hid.number.setWidth 4 = 1#4
      · rw [if_pos (hpoll.2 hendpoint)]
        cases hreports : d.reports with
        | nil =>
          right
          exact ⟨fun h => h.pending hreports, fun _ => nofun, hreports⟩
        | cons report rest =>
          left
          have hpending : d.reports ≠ [] := hreports ▸ List.cons_ne_nil _ _
          exact ⟨⟨hf, by omega, hendpoint, hpending⟩, report, rest, rfl, rfl⟩
      · right
        rw [if_neg (mt hpoll.1 hendpoint)]
        exact ⟨fun h => hendpoint h.endpoint, fun _ => nofun, rfl⟩
  · right
    rw [Device.respond_of_forced d hf]
    refine ⟨fun h => ?_, fun data hdata => ?_, rfl⟩
    · rw [h.unforced] at hf
      exact nomatch hf
    · exact hhonest data (hf.trans (congrArg some hdata))

/-! ## One poll -/

/-- The device has been found, nothing of an earlier poll is left in the receive
queue, and no report is too large to be announced. -/
structure Poised (hid : HidEndpoint) (s : Link) (k : Controller) : Prop where
  enumerated : s.enumerated = true
  endpoint : s.hid = some hid
  address : k.device.address = (s.address.setWidth 7).setWidth 8
  honest : k.device.Honest
  clean : k.Clean .interrupt
  short : ∀ report ∈ k.device.reports, report.length < 2048

/-- What a reading into a buffer with room for `room` bytes comes to. -/
def ReadsAs (hid : HidEndpoint) (s : Link) (k : Controller)
    (buffer : List Byte) (room : Nat) (moved : Moved UsbError) (s' : Link)
    (k' : Controller) : Prop :=
  (k.device.Offers hid ∧ ∃ report rest, k.device.reports = report :: rest ∧
      k'.device.reports = rest ∧ s' = { s with toggle := !s.toggle } ∧
      moved = ⟨.ok (min room report.length),
        report.take room ++ buffer.drop (min room report.length)⟩) ∨
    (¬ k.device.Offers hid ∧ k'.device.reports = k.device.reports ∧ s' = s ∧
      ∃ e, moved = ⟨.error e, buffer⟩)

section Poll

variable {T : Prop} {spin : Bool} {settings : Settings} {hid : HidEndpoint}
  {s : Link} {k k' : Controller}
  {w : World Register (Controller × TickingClock)}
  {buffer : List Byte} {room : Nat}

theorem Poised.pollable? (h : Poised hid s k) :
    s.pollable? = if hid.number = 0 then none else some hid := by
  unfold Link.pollable?
  rw [h.endpoint, h.enumerated]
  by_cases hzero : hid.number = 0
  · simp [hzero]
  · rw [if_neg hzero]
    exact Option.filter_some_pos (by simpa using hzero)

theorem Poised.toggled (h : Poised hid s k) (toggle : Bool) :
    Poised hid { s with toggle } k :=
  ⟨h.enumerated, h.endpoint, h.address, h.honest, h.clean, h.short⟩

/-- What a poll's exchange does to the device and to the receive queue. -/
theorem Poised.polled (h : Poised hid s k)
    (hk' : Rests .interrupt
      (k.outcome s (Host.pollExchange s hid) buffer room).2 k') :
    let t := (Host.pollExchange s hid).transaction s buffer room
    k'.device = (k.device.respond t).2 ∧ Poised hid s k' := by
  intro t
  have hfits : ¬ k.Starved (Host.pollExchange s hid) s room :=
    fun hstarved => nomatch hstarved.1.1
  have hdevice : k'.device = (k.device.respond t).2 := by
    rw [hk'.device_eq, outcome_device, if_neg hfits]
  have hstanding : k.device.SameStanding k'.device := by
    rw [hdevice]
    exact Device.respond_standing nofun
  have hshort : (∀ data, k.answer t = .ack data → data.length < 2048) ∧
      ∀ report ∈ k'.device.reports, report.length < 2048 := by
    have hall := h.short
    unfold Controller.answer
    rw [hdevice]
    rcases respond_poll hid h.honest h.address buffer room with
      ⟨-, report, rest, hreports, hr⟩ | ⟨-, hr, hreports⟩
    · rw [hreports] at hall
      rw [hr]
      constructor
      · rintro _ ⟨⟩
        exact hall report List.mem_cons_self
      · exact fun r hmem => hall r (List.mem_cons_of_mem _ hmem)
    · rw [hreports]
      exact ⟨fun data hdata => absurd hdata (hr data), hall⟩
  exact ⟨hdevice, h.enumerated, h.endpoint,
    hstanding.address.trans h.address, hstanding.honest h.honest,
    hk'.clean_iff.2 (outcome_clean h.clean rfl hshort.1), hshort.2⟩

/-- What a poll's exchange returns: the report that the device offers, or a
failure. -/
theorem Poised.outcome (h : Poised hid s k) (buffer : List Byte) (room : Nat) :
    let t := (Host.pollExchange s hid).transaction s buffer room
    let moved := (k.outcome s (Host.pollExchange s hid) buffer room).1
    (k.device.Offers hid ∧ ∃ report rest, k.device.reports = report :: rest ∧
      (k.device.respond t).2.reports = rest ∧
      moved = ⟨.ok (min room report.length),
        report.take room ++ buffer.drop (min room report.length)⟩) ∨
    (¬ k.device.Offers hid ∧
      (k.device.respond t).2.reports = k.device.reports ∧
      ∃ e, moved = ⟨.error e, buffer⟩) := by
  intro t moved
  rcases respond_poll hid h.honest h.address buffer room with
    ⟨hoffers, report, rest, hreports, hr⟩ | ⟨hnone, hr, hreports⟩
  · have hshort : report.length < 2048 := by
      refine h.short report ?_
      rw [hreports]
      exact List.mem_cons_self
    have hanswer : k.answer t = .ack report := congrArg Prod.fst hr
    refine .inl ⟨hoffers, report, rest, hreports, ?_, ?_⟩
    · rw [hr]
    · exact (outcome_in h.clean hanswer rfl hshort).1
  · refine .inr ⟨hnone, hreports, ?_⟩
    rcases outcome_cases k s (Host.pollExchange s hid) buffer room with
      ⟨hstarved, -⟩ | ⟨-, ⟨e, -, hmoved⟩ | ⟨data, hack, -⟩ | ⟨data, hack, -⟩⟩
    · exact nomatch hstarved.1.1
    · exact ⟨e, congrArg Prod.fst hmoved⟩
    · exact absurd hack (hr data)
    · exact absurd hack (hr data)

/-- A reading takes the first report if the device offers it, and nothing
otherwise. -/
theorem yields_readReport_poised (h : Poised hid s w.env.1)
    (hroom : min (min buffer.length hid.maxPacketSize.toNat) buffer.length =
      room)
    (hsees : T → Sees 2 settings.transferTimeout w.env.2) :
    (((tickingHost spin settings).readReport buffer).run s).Yields T w
      fun r w' => Poised hid r.2 w'.env.1 ∧
        ReadsAs hid s w.env.1 buffer room r.1 r.2 w'.env.1 := by
  rw [Host.run_readReport, h.pollable?]
  by_cases hzero : hid.number = 0
  · rw [if_pos hzero]
    have hnone : ¬ w.env.1.device.Offers hid := by
      intro hoffers
      have hendpoint := hoffers.endpoint
      rw [hzero] at hendpoint
      exact absurd hendpoint (by decide)
    exact .pure ⟨h, .inr ⟨hnone, rfl, rfl, _, rfl⟩⟩
  · rw [if_neg hzero]
    have htype : (Host.pollExchange s hid).type ≠ .control := by
      show TransferType.interrupt ≠ .control
      exact nofun
    refine (yields_transfer_ticking hroom rfl htype hsees).bind ?_
    intro moved w' ⟨hmoved, hk'⟩
    obtain ⟨hdevice, hpoised⟩ := h.polled hk'
    rcases h.outcome buffer room with
      ⟨hoffers, report, rest, hreports, hrest, hresult⟩ |
        ⟨hnone, hreports, e, hresult⟩
    · rw [hmoved, hresult]
      refine .pure ⟨hpoised.toggled _, .inl ⟨hoffers, report, rest, hreports,
        ?_, rfl, rfl⟩⟩
      rw [hdevice]
      exact hrest
    · rw [hmoved, hresult]
      refine .pure ⟨hpoised, .inr ⟨hnone, ?_, rfl, _, rfl⟩⟩
      rw [hdevice]
      exact hreports

/-- What a poll comes to, by what its reading has come to. -/
def PollsAs (hid : HidEndpoint) (k k' : Controller) (driver driver' : Driver)
    (read : Except UsbError Nat) (result : Except UsbError (Option Update)) :
    Prop :=
  match read with
  | .ok n =>
    k.device.Offers hid ∧ ∃ report rest, k.device.reports = report :: rest ∧
      k'.device.reports = rest ∧ n = min hid.window report.length ∧
      driver'.state = { driver.state with toggle := !driver.state.toggle } ∧
      match PadState.ofReport? (report.take hid.window) with
      | some state =>
        result = .ok (some (.of driver.pad.state state)) ∧
          driver'.pad = ⟨state⟩
      | none => result = .ok none ∧ driver'.pad = driver.pad
  | .error e =>
    ¬ k.device.Offers hid ∧ k'.device.reports = k.device.reports ∧
      driver' = driver ∧
      result =
        if e.exchangeError? = some .nak ∨ e.exchangeError? = some .timeout then
          .ok none
        else .error e

/-- What is read is in front of the buffer. -/
theorem slice_read (report rest : List Byte) (room : Nat) :
    let n := min room report.length
    (Run.slice (report.take room ++ rest) 0 n :
        Run Register (Controller × TickingClock) (List Byte)) =
      pure (report.take room) := by
  intro n
  have hlength : (report.take room).length = n := List.length_take
  rw [Run.slice_eq (Nat.zero_le _) (by rw [List.length_append]; omega),
    List.drop_zero, List.take_left' hlength]

/-- What the poll makes of its reading. -/
theorem yields_received {driver : Driver} {moved : Moved UsbError} {s' : Link}
    (hread : ReadsAs hid driver.state k (List.replicate reportLength 0)
      hid.window moved s' k') :
    (match moved.result with
      | .ok count => do
        let message ← Run.slice moved.buffer 0 count
        let (update, pad) := driver.pad.receive message
        pure ((.ok update, pad), s')
      | .error e =>
        if e.exchangeError? = some .nak ∨ e.exchangeError? = some .timeout then
          pure ((.ok none, driver.pad), s')
        else pure ((.error e, driver.pad), s') :
      Run Register (Controller × TickingClock)
        ((Except UsbError (Option Update) × Gamepad) × Link)).Yields T w
      fun r w' => w' = w ∧ r.2 = s' ∧
        PollsAs hid k k' driver ⟨r.2, r.1.2⟩ moved.result r.1.1 := by
  rcases hread with ⟨hoffers, report, rest, hreports, hrest, rfl, rfl⟩ |
    ⟨hnone, hreports, rfl, e, rfl⟩
  · dsimp only
    rw [slice_read, pure_bind]
    refine .pure ⟨rfl, rfl, hoffers, report, rest, hreports, hrest, rfl, rfl,
      ?_⟩
    unfold Gamepad.receive
    cases PadState.ofReport? (report.take hid.window) with
    | none => exact ⟨rfl, rfl⟩
    | some state => exact ⟨rfl, rfl⟩
  · dsimp only
    split
    next hquiet =>
      exact .pure ⟨rfl, rfl, hnone, hreports, rfl, (if_pos hquiet).symm⟩
    next hloud =>
      exact .pure ⟨rfl, rfl, hnone, hreports, rfl, (if_neg hloud).symm⟩

/-- The room of a poll is the window of its endpoint. -/
theorem room_eq_window (hid : HidEndpoint) :
    min (min (List.replicate reportLength (0 : Byte)).length
      hid.maxPacketSize.toNat) (List.replicate reportLength (0 : Byte)).length =
        hid.window := by
  rw [List.length_replicate]
  exact Nat.min_eq_left (Nat.min_le_left _ _)

/-- A poll comes to what its reading comes to. -/
theorem polls_of_run {driver driver' : Driver} {patience : Nat}
    {result : Except UsbError (Option Update)}
    {w' : World Register (Controller × TickingClock)}
    (h : Poised hid driver.state w.env.1)
    (hrun : Operation.poll.perform (tickingHost spin settings) driver patience
      w = .ok (.polled result, driver') w') :
    Poised hid driver'.state w'.env.1 ∧
      ∃ moved, ((tickingHost spin settings).readReport
          (List.replicate reportLength 0)).run driver.state patience w =
            .ok (moved, driver'.state) w' ∧
        PollsAs hid w.env.1 w'.env.1 driver driver' moved.result result := by
  obtain ⟨⟨⟨result₁, pad⟩, s₁⟩, w₁, hpoll, hreply⟩ := Run.bind_eq_ok.1 hrun
  cases hreply
  rw [Gamepad.run_poll] at hpoll
  obtain ⟨⟨moved, s₂⟩, w₂, hreading, hreceived⟩ := Run.bind_eq_ok.1 hpoll
  have hread : (((tickingHost spin settings).readReport
      (List.replicate reportLength 0)).run driver.state).Yields False w _ :=
    yields_readReport_poised h (room_eq_window hid) False.elim
  obtain ⟨hpoised, hreads⟩ := hread.of_run hreading
  obtain ⟨rfl, rfl, hpolls⟩ :=
    (yields_received (T := False) hreads).of_run hreceived
  exact ⟨hpoised, moved, hreading, hpolls⟩

/-- A poll whose deadline can be seen comes to an end. -/
theorem poll_returns {driver : Driver} (h : Poised hid driver.state w.env.1)
    (hsees : Sees 2 settings.transferTimeout w.env.2) :
    ∃ enough result driver' w', ∀ patience, enough ≤ patience →
      Operation.poll.perform (tickingHost spin settings) driver patience w =
        .ok (.polled result, driver') w' := by
  have hread : (((tickingHost spin settings).readReport
      (List.replicate reportLength 0)).run driver.state).Yields True w _ :=
    yields_readReport_poised h (room_eq_window hid) fun _ => hsees
  have hpoll : (Operation.poll.perform (tickingHost spin settings)
      driver).Yields True w fun r _ => ∃ result, r.1 = .polled result := by
    rw [Operation.perform, Gamepad.run_poll, bind_assoc]
    refine hread.bind ?_
    rintro ⟨moved, s'⟩ w₁ ⟨-, hreads⟩
    refine (yields_received hreads).bind ?_
    exact fun r w₂ _ => .pure ⟨_, rfl⟩
  obtain ⟨⟨reply, driver'⟩, w', enough, ⟨result, rfl⟩, hrun⟩ :=
    hpoll.exists_run trivial
  exact ⟨enough, result, driver', w', hrun⟩

end Poll

/-! ## Any number of polls -/

/-- The device has another report to hand out. -/
def Controller.queueReport (k : Controller) (report : List Byte) :
    Controller :=
  { k with device := { k.device with reports := k.device.reports ++ [report] } }

/-- The updates that a poll brings. -/
def gained : Except UsbError (Option Update) → List Update
  | .ok (some update) => [update]
  | _ => []

/-- What can have come of a pad since its device was found: any number of polls,
successful or not, with reports queued between them and any changes of the
conditions.  Apart from the world and the driver it gives the reports that have
been queued, those at the beginning included, and the updates of the polls, both
in their order. -/
inductive Played (spin : Bool) (settings : Settings) (first : Gamepad) :
    World Register (Controller × TickingClock) → Driver → List (List Byte) →
    List Update → Prop where
  | found {w w' : World Register (Controller × TickingClock)}
      {driver driver' : Driver} {patience : Nat}
      (operation : Operation (Controller × TickingClock)) :
    Finds operation → w.env.1.device.Honest → driver.pad = first →
    operation.perform (tickingHost spin settings) driver patience w =
      .ok (.finished (.ok ()), driver') w' →
    w'.env.1.Clean .interrupt →
    (∀ report ∈ w'.env.1.device.reports, report.length < 2048) →
    Played spin settings first w' driver' w'.env.1.device.reports []
  | report {w : World Register (Controller × TickingClock)} {driver : Driver}
      {queued : List (List Byte)} {updates : List Update}
      (report : List Byte) :
    report.length < 2048 → Played spin settings first w driver queued updates →
    Played spin settings first
      { w with env := (w.env.1.queueReport report, w.env.2) } driver
      (queued ++ [report]) updates
  | change {w : World Register (Controller × TickingClock)} {driver : Driver}
      {queued : List (List Byte)} {updates : List Update} (c : Conditions) :
    Played spin settings first w driver queued updates →
    Played spin settings first
      { w with env := (c.impose w.env.1, w.env.2) } driver queued updates
  | poll {w w' : World Register (Controller × TickingClock)}
      {driver driver' : Driver} {queued : List (List Byte)}
      {updates : List Update} {patience : Nat}
      {result : Except UsbError (Option Update)} :
    Played spin settings first w driver queued updates →
    Operation.poll.perform (tickingHost spin settings) driver patience w =
      .ok (.polled result, driver') w' →
    Played spin settings first w' driver' queued (updates ++ gained result)

/-- Of the reports that have been queued the pad has taken in the first ones, in
their order, and the device still has the others. -/
def Delivered (hid : HidEndpoint) (first : Gamepad)
    (queued left : List (List Byte)) (updates : List Update)
    (driver : Driver) : Prop :=
  ∃ taken, queued = taken ++ left ∧
    first.receiveAll (taken.map (List.take hid.window)) =
      (updates, driver.pad) ∧
    driver.state.toggle = decide (taken.length % 2 = 1)

section Play

variable {spin : Bool} {settings : Settings} {first : Gamepad}
  {hid : HidEndpoint} {s : Link} {k k' : Controller} {driver driver' : Driver}
  {w : World Register (Controller × TickingClock)}
  {queued left : List (List Byte)} {updates : List Update}

/-- A device that has just been found, with nothing in its way. -/
theorem poised_of_found (hfresh : s.Fresh) (htracks : Tracks s k.device false)
    (hclean : k.Clean .interrupt)
    (hshort : ∀ report ∈ k.device.reports, report.length < 2048) :
    ∃ hid, Poised hid s k := by
  obtain ⟨hid, hhid⟩ := Option.isSome_iff_exists.1 hfresh.endpoint
  have henumerated := hfresh.enumerated
  have haddress : k.device.address = (s.address.setWidth 7).setWidth 8 := by
    rw [(htracks.reached henumerated rfl).1, htracks.address henumerated]
    decide
  exact ⟨hid, henumerated, hhid, haddress, htracks.honest, hclean, hshort⟩

theorem Poised.queueReport (h : Poised hid s k) {report : List Byte}
    (hreport : report.length < 2048) : Poised hid s (k.queueReport report) := by
  have hshort : ∀ r ∈ k.device.reports ++ [report], r.length < 2048 := by
    intro r hr
    rcases List.mem_append.1 hr with hold | hnew
    · exact h.short r hold
    · rw [List.mem_singleton.1 hnew]
      exact hreport
  exact ⟨h.enumerated, h.endpoint, h.address, h.honest, h.clean, hshort⟩

theorem Poised.impose (h : Poised hid s k) (c : Conditions) :
    Poised hid s (c.impose k) :=
  ⟨h.enumerated, h.endpoint, h.address, c.honest, h.clean, h.short⟩

/-- One poll: a report that leaves the queue is taken in behind the others. -/
theorem Delivered.polled {read : Except UsbError Nat}
    {result : Except UsbError (Option Update)}
    (h : Delivered hid first queued k.device.reports updates driver)
    (hpoll : PollsAs hid k k' driver driver' read result) :
    Delivered hid first queued k'.device.reports (updates ++ gained result)
      driver' := by
  cases read with
  | error e =>
    obtain ⟨-, hreports, rfl, rfl⟩ := hpoll
    -- Whether or not the failure is reported, it brings no update.
    have hnothing : gained (if e.exchangeError? = some .nak ∨
        e.exchangeError? = some .timeout then .ok none else .error e) = [] := by
      split <;> rfl
    rw [hnothing, List.append_nil, hreports]
    exact h
  | ok n =>
    obtain ⟨taken, hqueued, hreceived, htoggle⟩ := h
    obtain ⟨-, report, rest, hreports, hrest, -, hstate, hresult⟩ := hpoll
    refine ⟨taken ++ [report], ?_, ?_, ?_⟩
    · rw [hqueued, hreports, hrest, List.append_assoc]
      rfl
    · rw [List.map_append, Gamepad.receiveAll_append, hreceived]
      show (updates ++ ((driver.pad.receive _).1.toList ++ []),
        (driver.pad.receive _).2) = _
      rw [List.append_nil]
      unfold Gamepad.receive
      split at hresult
      next state hdecodes =>
        obtain ⟨rfl, hpad⟩ := hresult
        rw [hdecodes, hpad]
        rfl
      next hforeign =>
        obtain ⟨rfl, hpad⟩ := hresult
        rw [hforeign, hpad]
        rfl
    · rw [hstate, htoggle, List.length_append, List.length_singleton,
        ← decide_not, decide_eq_decide]
      omega

/-- Every report is accounted for at every point.  That nothing is left behind
for the next poll is part of the invariant: what a poll reads is the report that
it takes only because of that. -/
theorem Played.delivered
    (h : Played spin settings first w driver queued updates) :
    ∃ hid, Poised hid driver.state w.env.1 ∧
      Delivered hid first queued w.env.1.device.reports updates driver := by
  induction h with
  | found operation ho hhonest hfirst hrun hclean hshort =>
    obtain ⟨hpad, hfresh, htracks⟩ := Simulation.found ho hhonest hrun
    obtain ⟨hid, hpoised⟩ := poised_of_found hfresh htracks hclean hshort
    refine ⟨hid, hpoised, [], rfl, ?_, hfresh.unread⟩
    rw [hpad, hfirst]
    rfl
  | report report hreport _ ih =>
    obtain ⟨hid, hpoised, taken, hqueued, hreceived, htoggle⟩ := ih
    refine ⟨hid, hpoised.queueReport hreport, taken, ?_, hreceived, htoggle⟩
    rw [hqueued, List.append_assoc]
    rfl
  | change c _ ih =>
    obtain ⟨hid, hpoised, hdelivered⟩ := ih
    exact ⟨hid, hpoised.impose c, hdelivered⟩
  | poll _ hrun ih =>
    obtain ⟨hid, hpoised, hdelivered⟩ := ih
    obtain ⟨hpoised', moved, -, hpolls⟩ := polls_of_run hpoised hrun
    exact ⟨hid, hpoised', hdelivered.polled hpolls⟩

/-- The updates of a pad are those of the reports that have left the queue, each
taken in once and in order; the others are still queued.  If the deadline of the
next poll can be seen, that poll comes to an end.  It takes the first report
just if the device offers it, which is when its reading succeeds; otherwise it
takes none and changes nothing that the driver keeps. -/
theorem reports_delivered
    (h : Played spin settings first w driver queued updates) :
    ∃ hid, driver.state.hid = some hid ∧
      Delivered hid first queued w.env.1.device.reports updates driver ∧
      (Sees 2 settings.transferTimeout w.env.2 →
        ∃ enough result driver' w', ∀ patience, enough ≤ patience →
          Operation.poll.perform (tickingHost spin settings) driver patience w =
            .ok (.polled result, driver') w') ∧
      ∀ patience result driver' w',
        Operation.poll.perform (tickingHost spin settings) driver patience w =
          .ok (.polled result, driver') w' →
        ∃ moved, ((tickingHost spin settings).readReport
            (List.replicate reportLength 0)).run driver.state patience w =
              .ok (moved, driver'.state) w' ∧
          PollsAs hid w.env.1 w'.env.1 driver driver' moved.result result := by
  obtain ⟨hid, hpoised, hdelivered⟩ := h.delivered
  refine ⟨hid, hpoised.endpoint, hdelivered, poll_returns hpoised, ?_⟩
  exact fun _ _ _ _ hrun => (polls_of_run hpoised hrun).2

end Play

/-! ## A button -/

/-- A report of a pad whose button A is down. -/
def buttonDown : List Byte := [0, 20, 0, 0x10] ++ List.replicate 16 0

/-- A pad that has just been found delivers the report that comes next, and
delivers it once. -/
theorem button_delivered :
    ∃ w driver, Played false {} {} w driver [buttonDown]
        [.of {} (.view buttonDown)] ∧
      driver.pad = ⟨.view buttonDown⟩ ∧ driver.state.toggle = true ∧
      w.env.1.device.reports = [] := by
  have hhonest : freshBench.env.1.device.Honest := fun _ => nofun
  have hfinds : Finds (.start PowerSwitch.alwaysOn (.ofMillis 100) :
      Operation (Controller × TickingClock)) := fun _ => .pure rfl
  have hreturns : ((Operation.start PowerSwitch.alwaysOn
      (.ofMillis 100)).perform (tickingHost false {}) {}).returns 4 freshBench
      (fun r w => decide (r.1 = .finished (.ok ()) ∧ w.env.1.rxStatus = [] ∧
          w.env.1.rxFifo = [] ∧ w.env.1.device.reports = []) &&
        (Operation.poll.perform (tickingHost false {}) r.2).returns 4
          { w with env := (w.env.1.queueReport buttonDown, w.env.2) }
          fun r' _ => decide (
            r'.1 = .polled (.ok (some (.of {} (.view buttonDown)))) ∧
              r'.2.state.hid = some ⟨1, 32, 0⟩)) = true := by
    decide +kernel
  obtain ⟨⟨reply, driver⟩, w, hstart, hreturns⟩ := exists_of_returns hreturns
  obtain ⟨hfound, hreturns⟩ := Bool.and_eq_true_iff.1 hreturns
  obtain ⟨⟨reply', driver'⟩, w', hpoll, hends⟩ := exists_of_returns hreturns
  obtain ⟨rfl, hstatus, hfifo, hreports⟩ := of_decide_eq_true hfound
  obtain ⟨rfl, hhid⟩ := of_decide_eq_true hends
  have hclean : w.env.1.Clean .interrupt := by
    unfold Controller.Clean Controller.InStep
    rw [hstatus, hfifo]
    exact ⟨rfl, fun _ => List.not_mem_nil.elim⟩
  have hplayed := Played.found _ hfinds hhonest rfl hstart hclean
    (by simp [hreports])
  rw [hreports] at hplayed
  have hplayed := (hplayed.report buttonDown (by decide)).poll hpoll
  obtain ⟨hid, hknown, ⟨taken, hqueued, hreceived, htoggle⟩, -⟩ :=
    reports_delivered hplayed
  obtain rfl : ⟨1, 32, 0⟩ = hid := Option.some.inj (hhid.symm.trans hknown)
  cases taken with
  | nil =>
    have hnone := congrArg Prod.fst hreceived
    exact absurd hnone.symm (List.cons_ne_nil _ _)
  | cons report rest =>
    obtain ⟨rfl, hrest⟩ := List.cons.inj hqueued
    obtain ⟨rfl, hleft⟩ := List.append_eq_nil_iff.1 hrest.symm
    have hdecoded : Gamepad.receiveAll {}
        [buttonDown.take (HidEndpoint.window ⟨1, 32, 0⟩)] =
          ([.of {} (.view buttonDown)], ⟨.view buttonDown⟩) := by decide
    have hpad := congrArg Prod.snd (hdecoded.symm.trans hreceived)
    exact ⟨w', driver', hplayed, hpad.symm, htoggle, hleft⟩

end Simulation

end UsbHost
