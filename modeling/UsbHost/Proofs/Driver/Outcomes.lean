import UsbHost.Proofs.Driver.Course

/-!
# What decides an exchange

Once the channel of an exchange has been started, what the exchange comes to is
what the first event says that says anything of it: a reading of the channel's
interrupts that shows how the exchange ended, or a reading of the clock at or
after the deadline.  So the verdict on an exchange is a function of the events
alone, and everything that happens after the deciding event is closing down.

## Main results

* `Exchange.Concludes.verdict?_eq` — the end of an exchange is its verdict.
* `first_verdict_decides` — the outcome of an exchange on any hardware.
* `toggle_error_passed_over` — what a reading that shows a toggle error decides
  is decided by its other bits.
-/

namespace UsbHost

open Run

variable {σ : Type}

/-! ## Verdicts -/

/-- What an event says of an exchange whose channel is watched until a
deadline. -/
def Event.verdict? (c : Channel) (d : Deadline) :
    Event Register → Option (Except TransferError Unit)
  | .read r v => if r = .channel c .interrupts then v.ending? else none
  | .clock t => if d.reached t then some (.error .timeout) else none
  | _ => none

/-- What the first event says that says anything. -/
def verdict? (c : Channel) (d : Deadline) (events : List (Event Register)) :
    Option (Except TransferError Unit) :=
  events.findSome? (Event.verdict? c d)

section Verdict

variable {c : Channel} {d : Deadline} {events : List (Event Register)}

/-- The interrupts of a channel never tell of a timeout. -/
theorem ending?_ne_timeout (v : Word) :
    v.ending? ≠ some (.error .timeout) := by
  unfold Word.ending?
  split
  · nofun
  split
  · nofun
  split
  · nofun
  split
  · nofun
  · nofun

theorem Event.Undecided.verdict?_eq {e : Event Register}
    (h : e.Undecided c d) : e.verdict? c d = none := by
  cases e with
  | read r v => exact (if_pos h.1).trans h.2
  | clock t => exact if_neg (Bool.eq_false_iff.1 h)
  | _ => exact h.elim

/-- Events that say nothing leave the verdict to those after them. -/
theorem verdict?_append (h : ∀ e ∈ events, e.verdict? c d = none)
    (later : List (Event Register)) :
    verdict? c d (events ++ later) = verdict? c d later := by
  unfold verdict?
  rw [List.findSome?_append, List.findSome?_eq_none_iff.2 h, Option.none_or]

theorem verdict?_append_some {ending : Except TransferError Unit}
    (h : verdict? c d events = some ending) (later : List (Event Register)) :
    verdict? c d (events ++ later) = some ending := by
  unfold verdict? at h ⊢
  rw [List.findSome?_append, h, Option.some_or]

theorem verdict?_undecided (h : ∀ e ∈ events, e.Undecided c d)
    (later : List (Event Register)) :
    verdict? c d (events ++ later) = verdict? c d later :=
  verdict?_append (fun e he => (h e he).verdict?_eq) later

/-- What comes after an event that says something does not count. -/
theorem verdict?_cons {e : Event Register} {ending : Except TransferError Unit}
    (h : e.verdict? c d = some ending) (later : List (Event Register)) :
    verdict? c d (e :: later) = some ending := by
  unfold verdict?
  rw [List.findSome?_cons, h]

theorem verdict?_read (v : Word) :
    (Event.read (.channel c .interrupts) v).verdict? c d = v.ending? :=
  if_pos rfl

theorem verdict?_clock {t : Duration} (h : d.reached t = true) :
    (Event.clock t).verdict? c d = some (.error .timeout) :=
  if_pos h

/-- What says something is a reading of the interrupts, or of a late clock. -/
theorem verdict?_cases {e : Event Register} {ending : Except TransferError Unit}
    (h : e.verdict? c d = some ending) :
    (∃ v, e = .read (.channel c .interrupts) v ∧ v.ending? = some ending) ∨
      ∃ t, e = .clock t ∧ d.reached t = true ∧ ending = .error .timeout := by
  cases e with
  | read r v =>
    by_cases hr : r = .channel c .interrupts
    · exact .inl ⟨v, congrArg (Event.read · v) hr, (if_pos hr).symm.trans h⟩
    · exact nomatch (if_neg hr).symm.trans h
  | clock t =>
    by_cases ht : d.reached t = true
    · cases (if_pos ht).symm.trans h
      exact .inr ⟨t, rfl, ht, rfl⟩
    · exact nomatch (if_neg ht).symm.trans h
  | _ => exact nomatch h

/-- The time is up if the clock tells so before the channel tells anything. -/
theorem verdict?_eq_timeout_iff :
    verdict? c d events = some (.error .timeout) ↔
      ∃ earlier t later, events = earlier ++ .clock t :: later ∧
        d.reached t = true ∧
        ∀ v, .read (.channel c .interrupts) v ∈ earlier → v.ending? = none := by
  constructor
  · intro h
    obtain ⟨earlier, e, later, rfl, he, hearlier⟩ :=
      List.findSome?_eq_some_iff.1 h
    rcases verdict?_cases he with ⟨v, rfl, hv⟩ | ⟨t, rfl, ht, -⟩
    · exact (ending?_ne_timeout v hv).elim
    · refine ⟨earlier, t, later, rfl, ht, fun v hv => ?_⟩
      exact (verdict?_read v).symm.trans (hearlier _ hv)
  · rintro ⟨earlier, t, later, rfl, ht, hearlier⟩
    cases hverdict : verdict? c d earlier with
    | none =>
      rw [verdict?_append (List.findSome?_eq_none_iff.1 hverdict)]
      exact verdict?_cons (verdict?_clock ht) later
    | some ending =>
      -- Something before it has told of the end, and it was the clock too.
      obtain ⟨e, he, hending⟩ := List.exists_of_findSome?_eq_some hverdict
      rcases verdict?_cases hending with ⟨v, rfl, hv⟩ | ⟨-, -, -, rfl⟩
      · rw [hearlier v he] at hv
        exact nomatch hv
      · exact verdict?_append_some hverdict _

end Verdict

/-! ## The outcome of an exchange -/

/-- What was seen of an exchange since its deadline was fixed, up to its end,
and what it came to.  The time limit counts from `start`. -/
structure Exchange.Decided (x : Exchange) (start timeout : Duration)
    (seen : List (Event Register)) (result : Except TransferError Nat) :
    Prop where
  /-- The first event that says anything has decided. -/
  verdict : verdict? x.channel (.ofStart start timeout) seen =
    some (result.map fun _ => ())
  /-- It was the clock if it was late before the channel told anything. -/
  timeout_iff : result = .error .timeout ↔
    ∃ earlier t later, seen = earlier ++ .clock t :: later ∧
      start.nanos + timeout.nanos ≤ t.nanos ∧
      ∀ v, .read (.channel x.channel .interrupts) v ∈ earlier →
        v.ending? = none
  /-- No clock gets to a point in time that it cannot show. -/
  in_time : start.add? timeout = none → result ≠ .error .timeout
  /-- The interrupts of the channel are acknowledged last. -/
  cleared : ∃ rest, seen = rest ++
    [.write (.channel x.channel .interrupts) (BitVec.allOnes 32)]
  /-- A channel that is still enabled when the time is up is disabled first. -/
  disabled : result = .error .timeout →
    ∃ earlier t v later,
      seen = earlier ++ .clock t ::
        .read (.channel x.channel .characteristics) v :: later ∧
      (Deadline.ofStart start timeout).reached t = true ∧
      (ChannelCharacteristics.enable.get ⟨v⟩ = true →
        ∃ rest, later = .write (.channel x.channel .characteristics)
          (ChannelCharacteristics.disable.set true ⟨v⟩).raw :: rest)

/-- What has been seen of an exchange that does not return: nothing says
anything of its end, or a packet that has arrived is still being taken off the
receive FIFO, or the channel is still being halted after the deadline. -/
def Exchange.Pending (x : Exchange) (d : Deadline)
    (seen : List (Event Register)) : Prop :=
  verdict? x.channel d seen = none ∨
    (x.direction = .toHost ∧ verdict? x.channel d seen = some (.ok ())) ∨
    verdict? x.channel d seen = some (.error .timeout)

section Outcome

variable {x : Exchange} {d : Deadline} {events : List (Event Register)}

theorem Exchange.Concludes.verdict?_eq {ending : Except TransferError Unit}
    (h : x.Concludes d events ending) :
    verdict? x.channel d events = some ending := by
  cases h with
  | received hx hwatched hv htaken =>
    rw [verdict?_undecided hwatched]
    exact verdict?_cons ((verdict?_read _).trans hv) _
  | told hwatched hv =>
    rw [verdict?_undecided hwatched]
    exact verdict?_cons ((verdict?_read _).trans hv) _
  | expired hwatched ht hclosing =>
    rw [verdict?_undecided hwatched]
    exact verdict?_cons (verdict?_clock ht) _

theorem Exchange.Lingers.pending (h : x.Lingers d events) :
    x.Pending d events := by
  cases h with
  | watching hwatched =>
    refine .inl ?_
    rw [← List.append_nil events, verdict?_undecided hwatched]
    rfl
  | receiving hx hwatched hv htaken =>
    refine .inr (.inl ⟨hx, ?_⟩)
    rw [verdict?_undecided hwatched]
    exact verdict?_cons ((verdict?_read _).trans hv) _
  | expired hwatched ht hclosing =>
    refine .inr (.inr ?_)
    rw [verdict?_undecided hwatched]
    exact verdict?_cons (verdict?_clock ht) _

theorem Exchange.Concludes.cleared {ending : Except TransferError Unit}
    (h : x.Concludes d events ending) :
    ∃ rest, events = rest ++
      [.write (.channel x.channel .interrupts) (BitVec.allOnes 32)] := by
  cases h with
  | @received watched taken v hx hwatched hv htaken =>
    refine ⟨watched ++ .read (.channel x.channel .interrupts) v :: taken, ?_⟩
    rw [List.append_assoc]
    rfl
  | @told watched v ending hwatched hv =>
    refine ⟨watched ++ [.read (.channel x.channel .interrupts) v], ?_⟩
    rw [List.append_assoc]
    rfl
  | @expired watched closing t hwatched ht hclosing =>
    obtain ⟨before, rfl⟩ := hclosing.cleared
    refine ⟨watched ++ .clock t :: before, ?_⟩
    rw [List.append_assoc]
    rfl

/-- An exchange ends as an error of the time limit only through its channel
being brought to rest. -/
theorem Exchange.Concludes.disabled
    (h : x.Concludes d events (.error .timeout)) :
    ∃ earlier t v later,
      events = earlier ++ .clock t ::
        .read (.channel x.channel .characteristics) v :: later ∧
      d.reached t = true ∧
      (ChannelCharacteristics.enable.get ⟨v⟩ = true →
        ∃ rest, later = .write (.channel x.channel .characteristics)
          (ChannelCharacteristics.disable.set true ⟨v⟩).raw :: rest) := by
  cases h with
  | told hwatched hv => exact (ending?_ne_timeout _ hv).elim
  | expired hwatched ht hclosing =>
    cases hclosing with
    | resting hv =>
      refine ⟨_, _, _, _, rfl, ht, fun henabled => ?_⟩
      rw [hv] at henabled
      exact nomatch henabled
    | halted hv hwait => exact ⟨_, _, _, _, rfl, ht, fun _ => ⟨_, rfl⟩⟩

/-- An ending without a count is told apart by its error. -/
theorem result_eq_error {result : Except TransferError Nat} {e : TransferError}
    (h : (result.map fun _ => ()) = .error e) : result = .error e := by
  cases result with
  | ok count => exact nomatch h
  | error e' =>
    cases h
    rfl

/-- What an exchange that has ended came to. -/
theorem Exchange.Concludes.decided {start timeout : Duration}
    {result : Except TransferError Nat}
    (h : x.Concludes (.ofStart start timeout) events
      (result.map fun _ => ())) :
    x.Decided start timeout events result := by
  have htimeout : result = .error .timeout ↔
      verdict? x.channel (.ofStart start timeout) events =
        some (.error .timeout) := by
    rw [h.verdict?_eq]
    refine ⟨?_, fun h => result_eq_error (Option.some.inj h)⟩
    rintro rfl
    rfl
  constructor
  · exact h.verdict?_eq
  · rw [htimeout, verdict?_eq_timeout_iff]
    simp only [Deadline.reached_ofStart_iff]
  · intro hnever hresult
    obtain ⟨-, t, -, -, ht, -⟩ := verdict?_eq_timeout_iff.1 (htimeout.1 hresult)
    rw [Deadline.ofStart, hnever] at ht
    exact Bool.false_ne_true ht
  · exact h.cleared
  · rintro rfl
    exact h.disabled

/-- The outcome of an exchange on any hardware.  Once its channel has been
started, the words of its packet are pushed and the clock is read; from there on
the first event that tells how the exchange ended decides, and none has told if
it does not return, or what it told is still being acted on. -/
theorem first_verdict_decides (host : Host σ) (s : Link) (x : Exchange)
    (buffer : List Byte) (length : Nat) :
    let room := min length buffer.length
    let timeout := host.settings.transferTimeout
    (host.transfer s x buffer length).Traces
      (fun events moved => ∀ before launch after,
        events = before ++ launch :: after → x.Starts launch →
        ∃ start seen,
          after = x.pushing s room buffer ++ .clock start :: seen ∧
          x.Decided start timeout seen moved.result)
      fun events => ∀ before launch after,
        events = before ++ launch :: after → x.Starts launch →
        ∃ start seen,
          after = x.pushing s room buffer ++ .clock start :: seen ∧
          x.Pending (.ofStart start timeout) seen := by
  intro room timeout
  refine ((traces_transfer host s x buffer length).mono ?_).weaken ?_
  · rintro _ moved hcourse before launch after rfl hlaunch
    obtain ⟨start, seen, hafter, hconcludes⟩ := hcourse.of_start hlaunch
    exact ⟨start, seen, hafter, hconcludes.decided⟩
  · rintro _ hunderway before launch after rfl hlaunch
    obtain ⟨start, seen, hafter, hlingers⟩ := hunderway.of_start hlaunch
    exact ⟨start, seen, hafter, hlingers.pending⟩

/-- A poll of a gamepad that has nothing to report is told so by its channel. -/
theorem gamepad_poll_decided :
    let x := Host.pollExchange gamepadState ⟨1, 32, 0⟩
    ∃ moved w' before launch start seen,
      benchHost.transfer gamepadState x (List.replicate 8 0) 8 20 startedBench =
        .ok moved w' ∧
      startedBench.Through (before ++ launch ::
        (x.pushing gamepadState 8 (List.replicate 8 0) ++
          .clock start :: seen)) w' ∧
      x.Starts launch ∧
      x.Decided start benchHost.settings.transferTimeout seen
        (.error .nak) := by
  intro x
  let transfer := benchHost.transfer gamepadState x (List.replicate 8 0) 8
  have hreturns : transfer.returns 20 startedBench
      (fun moved _ => decide (moved.result = .error .nak)) = true := by
    decide +kernel
  obtain ⟨moved, w', hrun, hnak⟩ := exists_of_returns hreturns
  have hnak : moved.result = .error .nak := of_decide_eq_true hnak
  obtain ⟨events, hevents, hdecided⟩ := (first_verdict_decides benchHost
    gamepadState x (List.replicate 8 0) 8).of_run hrun
  have hcourse := (traces_transfer benchHost _ _ _ _).of_through hrun hevents
  obtain ⟨before, launch, after, rfl, hlaunch⟩ :=
    hcourse.exists_start (hnak ▸ nofun)
  obtain ⟨start, seen, rfl, hresult⟩ := hdecided _ _ _ rfl hlaunch
  exact ⟨moved, w', before, launch, start, seen, hrun, hevents, hlaunch,
    hnak ▸ hresult⟩

/-! ## Toggle errors -/

/-- A toggle error does not show in what a channel tells. -/
theorem ending?_or_toggleError (v : Word) :
    (v ||| ChannelInterrupts.toggleError.bits : Word).ending? = v.ending? := by
  have hother : ∀ i ∈ [0, 1, 2, 3, 4, 7, 8],
      (v ||| ChannelInterrupts.toggleError.bits).getLsbD i = v.getLsbD i := by
    intro i hi
    have hbit : ∀ i ∈ [0, 1, 2, 3, 4, 7, 8],
        ChannelInterrupts.toggleError.bits.getLsbD i = false := by
      decide
    rw [BitVec.getLsbD_or, hbit i hi, Bool.or_false]
  simp only [Word.ending?, hother, List.mem_cons, true_or, or_true]

/-- What a channel tells without completion, NAK or STALL. -/
theorem ending?_of_plain {v : Word}
    (h : v.getLsbD 0 = false ∧ v.getLsbD 4 = false ∧ v.getLsbD 3 = false) :
    v.ending? =
      if v.getLsbD 2 || v.getLsbD 7 || v.getLsbD 8 || v.getLsbD 1 then
        some (.error .error)
      else none := by
  obtain ⟨h0, h4, h3⟩ := h
  rw [Word.ending?, if_neg (Bool.eq_false_iff.1 h0),
    if_neg (Bool.eq_false_iff.1 h4), if_neg (Bool.eq_false_iff.1 h3)]

/-- What a reading decides that shows a toggle error and neither completion nor
NAK nor STALL is decided by its other bits.  It is an error if the reading also
shows a bus error or a halt; by itself a toggle error decides nothing, and the
exchange comes to whatever the events after it tell. -/
theorem toggle_error_passed_over {host : Host σ} {s : Link} {x : Exchange}
    {buffer : List Byte} {length patience : Nat} {w w' : World Register σ}
    {moved : Moved TransferError} {before earlier later : List (Event Register)}
    {launch : Event Register} {start : Duration} {v : Word}
    (hrun : host.transfer s x buffer length patience w = .ok moved w')
    (hevents : w.Through (before ++ launch ::
      (x.pushing s (min length buffer.length) buffer ++ .clock start ::
        (earlier ++ .read (.channel x.channel .interrupts)
          (v ||| ChannelInterrupts.toggleError.bits) :: later))) w')
    (hlaunch : x.Starts launch)
    (hearlier : ∀ e ∈ earlier, e.verdict? x.channel
      (.ofStart start host.settings.transferTimeout) = none)
    (hplain : v.getLsbD 0 = false ∧ v.getLsbD 4 = false ∧
      v.getLsbD 3 = false) :
    if v.getLsbD 2 || v.getLsbD 7 || v.getLsbD 8 || v.getLsbD 1 then
      moved.result = .error .error
    else
      verdict? x.channel (.ofStart start host.settings.transferTimeout) later =
        some (moved.result.map fun _ => ()) := by
  have hcourse :=
    (traces_transfer host s x buffer length).of_through hrun hevents
  obtain ⟨start', seen, hseen, hconcludes⟩ := hcourse.of_start hlaunch
  obtain ⟨rfl, rfl⟩ : start = start' ∧ _ = seen := by
    simpa using hseen
  have hverdict := hconcludes.verdict?_eq
  rw [verdict?_append hearlier] at hverdict
  have hread := (verdict?_read (c := x.channel)
    (d := .ofStart start host.settings.transferTimeout) _).trans
      (ending?_or_toggleError v)
  rw [ending?_of_plain hplain] at hread
  split
  next hbits =>
    rw [if_pos hbits] at hread
    rw [verdict?_cons hread] at hverdict
    exact result_eq_error (Option.some.inj hverdict).symm
  next hbits =>
    rw [if_neg hbits] at hread
    rw [← hverdict]
    exact (verdict?_append (List.forall_mem_singleton.2 hread) later).symm

/-- Every channel tells of a toggle error, and of nothing else. -/
def toggledBus : Bus Register Unit where
  read r b :=
    match r with
    | .channel _ .interrupts => (ChannelInterrupts.toggleError.bits, b)
    | _ => (0, b)
  write _ _ b := b

/-- The driver on such a bus, with little time for an exchange. -/
def toggledHost : Host (Unit × Bench.TickingClock) :=
  { core := .ofParts toggledBus (Bench.TickingClock.clock false)
    settings := { transferTimeout := .ofMicros 2 } }

/-- There a poll of a gamepad runs out of time. -/
theorem toggled_poll_expires :
    let x := Host.pollExchange gamepadState ⟨1, 32, 0⟩
    let toggled : Event Register := .read (.channel 1 .interrupts)
      (0 ||| ChannelInterrupts.toggleError.bits)
    let cleared : Event Register :=
      .write (.channel 1 .interrupts) (BitVec.allOnes 32)
    let before : List (Event Register) :=
      [.read (.channel 1 .characteristics) 0, cleared,
        .write (.channel 1 .splitControl) 0, .read .frameNumber 0, cleared,
        .write (.channel 1 .transferSize) (x.sizeWord gamepadState 8), .barrier]
    let launch : Event Register := .write (.channel 1 .characteristics)
      (x.enableWord gamepadState false)
    let later : List (Event Register) :=
      [.clock (.ofMicros 2), toggled, .clock (.ofMicros 3),
        .read (.channel 1 .characteristics) 0, cleared]
    ∃ moved w',
      toggledHost.transfer gamepadState x (List.replicate 8 0) 8 20
        ⟨((), {}), []⟩ = .ok moved w' ∧
      World.Through ⟨((), {}), []⟩ (before ++ launch ::
        (x.pushing gamepadState 8 (List.replicate 8 0) ++
          .clock (.ofMicros 1) :: ([] ++ toggled :: later))) w' ∧
      moved.result = .error .timeout ∧
      verdict? 1 (.ofStart (.ofMicros 1) (.ofMicros 2)) later =
        some (.error .timeout) := by
  intro x toggled cleared before launch later
  let transfer := toggledHost.transfer gamepadState x (List.replicate 8 0) 8
  let events := before ++ launch ::
    (x.pushing gamepadState 8 (List.replicate 8 0) ++
      .clock (.ofMicros 1) :: ([] ++ toggled :: later))
  have hreturns : transfer.returns 20 ⟨((), {}), []⟩ (fun moved w' =>
      decide (w'.log = events.reverse ++ [] ∧
        moved.result = .error .timeout)) = true := by
    decide +kernel
  obtain ⟨moved, w', hrun, h⟩ := exists_of_returns hreturns
  obtain ⟨hlog, hresult⟩ := of_decide_eq_true h
  have hlaunch : x.Starts launch := starts_enableWord false
  have hverdict := toggle_error_passed_over hrun hlog hlaunch nofun
    ⟨rfl, rfl, rfl⟩
  rw [if_neg (by decide), hresult] at hverdict
  exact ⟨moved, w', hrun, hlog, hresult, hverdict⟩

end Outcome

end UsbHost
