import UsbHost.Proofs.Firmware.ReplyMatching
import UsbHost.Proofs.Machine.Patience

/-!
# Floods of replies

Every wait of a call to the firmware is bounded by a timeout, but each reply
that is dropped begins another wait, with a deadline of its own.  So what bounds
a call is not the clock: it is over soon after the last reply to somebody else,
and goes on for as long as such replies come.

## Main results

* `observed_waitWhileStatus` — a wait for the status register takes no more than
  100001 readings of a clock that shows microseconds.
* `observed_awaitReply`, `observed_exchangeWord` — each reply costs one such
  wait.
* `mailbox_bounded_by_replies` — a call returns, or has dropped as many replies
  as its observer has patience for; and it never returns if there is always a
  reply to somebody else.
-/

namespace UsbHost

open Run

variable {ρ σ : Type}

/-! ## Counting readings -/

/-- Whether the event is a reading of the clock. -/
def Event.isClock : Event ρ → Bool
  | .clock _ => true
  | _ => false

/-- How often the clock has been read. -/
def clockReadings (events : List (Event ρ)) : Nat :=
  events.countP Event.isClock

@[simp] theorem clockReadings_nil :
    clockReadings ([] : List (Event ρ)) = 0 := rfl

@[simp] theorem clockReadings_append (events later : List (Event ρ)) :
    clockReadings (events ++ later) =
      clockReadings events + clockReadings later :=
  List.countP_append

section

variable (events : List (Event ρ)) (t : Duration) (r : ρ) (v : Word)

@[simp] theorem clockReadings_clock :
    clockReadings (.clock t :: events) = clockReadings events + 1 :=
  List.countP_cons_of_pos rfl

@[simp] theorem clockReadings_read :
    clockReadings (.read r v :: events) = clockReadings events :=
  List.countP_cons_of_neg Bool.false_ne_true

@[simp] theorem clockReadings_write :
    clockReadings (.write r v :: events) = clockReadings events :=
  List.countP_cons_of_neg Bool.false_ne_true

end

/-! ## Clocks that show microseconds -/

/-- The clock shows one microsecond more at each reading, whatever happens on
the bus; `Shows t s` says that in the state `s` the next reading is `t`
microseconds. -/
structure Machine.Steady (m : Machine ρ σ) (Shows : Nat → σ → Prop) :
    Prop where
  shows : ∀ t s, Shows t s → (m.clock.now s).1 = .ofMicros t
  tick : ∀ t s, Shows t s → Shows (t + 1) (m.clock.now s).2
  read : ∀ t s r, Shows t s → Shows t (m.bus.read r s).2
  write : ∀ t s r v, Shows t s → Shows t (m.bus.write r v s)

/-- The last microsecond that a clock can show. -/
def lastMicro : Nat := 18446744073709551615999999

theorem nanos_le_longest {t : Nat} (h : t ≤ lastMicro) :
    t * 1000 ≤ Duration.longest.nanos :=
  Nat.le_trans (Nat.mul_le_mul_right 1000 h) (by decide)

theorem nanos_ofMicros {t : Nat} (h : t ≤ lastMicro) :
    (Duration.ofMicros t).nanos = t * 1000 :=
  Nat.min_eq_left (nanos_le_longest h)

/-- The timeout in nanoseconds, after a number of microseconds. -/
theorem nanos_add_mailboxTimeout (t : Nat) :
    t * 1000 + mailboxTimeout.nanos = (t + 100000) * 1000 := by
  rw [Nat.add_mul]
  rfl

section Steady

variable {m : Machine MailboxRegister σ} {Shows : Nat → σ → Prop}
  (hm : m.Steady Shows) {n start t : Nat} {w : World MailboxRegister σ}

include hm

theorem observed_now (hw : Shows t w.env) :
    m.now.Observed n w (fun events reading w' => events = [.clock reading] ∧
      reading = .ofMicros t ∧ Shows (t + 1) w'.env) fun _ _ => False :=
  .event (m.now_run n w) ⟨rfl, hm.shows t _ hw, hm.tick t _ hw⟩

theorem observed_read (r : MailboxRegister) (hw : Shows t w.env) :
    (m.read r).Observed n w (fun events v w' => events = [.read r v] ∧
      Shows t w'.env) fun _ _ => False :=
  .event (m.read_run r n w) ⟨rfl, hm.read t _ r hw⟩

theorem observed_deadlineAfter (hw : Shows start w.env) :
    (m.deadlineAfter mailboxTimeout).Observed n w (fun events deadline w' =>
      events = [.clock (.ofMicros start)] ∧
        deadline = .ofStart (.ofMicros start) mailboxTimeout ∧
        Shows (start + 1) w'.env) fun _ _ => False := by
  refine (observed_now hm hw).after ?_
  rintro _ _ v ⟨rfl, rfl, hv⟩
  exact .pure ⟨rfl, rfl, hv⟩

/-- A look at the deadline of a wait that began at `start`. -/
theorem observed_expired (start : Nat) (hw : Shows t w.env) (hstart : start ≤ t)
    (hroom : t + 100000 ≤ lastMicro) :
    (m.expired (.ofStart (.ofMicros start) mailboxTimeout)).Observed n w
      (fun events late w' => (∃ reading, events = [.clock reading]) ∧
        late = decide (start + 100000 ≤ t) ∧ Shows (t + 1) w'.env)
      fun _ _ => False := by
  have hend : start + 100000 ≤ lastMicro := by omega
  have hlast := nanos_le_longest hend
  have hbegin := nanos_ofMicros (Nat.le_of_add_right_le hend)
  have hnow := nanos_ofMicros (Nat.le_of_add_right_le hroom)
  have hcomes : (Deadline.ofStart (.ofMicros start)
      mailboxTimeout).expiresAt.isSome = true := by
    refine Option.isSome_iff_ne_none.2 fun hnever => ?_
    simp only [Deadline.ofStart] at hnever
    rw [Duration.add?_eq_none_iff, hbegin, nanos_add_mailboxTimeout] at hnever
    exact absurd hlast (Nat.not_le_of_lt hnever)
  unfold Machine.expired
  rw [if_pos hcomes]
  refine (observed_now hm hw).after ?_
  rintro _ _ v ⟨rfl, rfl, hv⟩
  refine .pure ⟨⟨_, rfl⟩, Bool.eq_iff_iff.2 ?_, hv⟩
  rw [Deadline.reached_ofStart_iff, decide_eq_true_iff, hbegin, hnow,
    nanos_add_mailboxTimeout, Nat.mul_le_mul_right_iff (by decide)]

/-- A wait for a bit of the status register ends, whatever the register shows:
after at most 100001 readings of the clock. -/
theorem observed_waitWhileStatus (bit : Nat) (hbit : bit < 32)
    (hn : 100000 ≤ n) (hw : Shows start w.env)
    (hroom : start + 200001 ≤ lastMicro) :
    (m.waitWhileStatus (BitVec.twoPow 32 bit)).Observed n w
      (fun events cleared w' => StatusWait bit events cleared ∧
        Shows (start + clockReadings events) w'.env ∧
        clockReadings events ≤ 100001) fun _ _ => False := by
  refine Observed.and_traces ?_ (m.traces_waitWhileStatus bit hbit)
  refine (observed_deadlineAfter hm hw).after ?_
  rintro _ _ w₁ ⟨rfl, rfl, hw₁⟩
  -- Each round before the deadline takes one reading, so there are fewer of
  -- them than the observer has patience for.
  refine .loop (fun k seen _ v => clockReadings seen = k ∧ k < 100000 ∧
    Shows (start + (k + 1)) v.env) ?_ ?_ ⟨rfl, by omega, hw₁⟩
  · rintro seen _ v ⟨-, hk, -⟩
    omega
  · rintro k seen _ v - ⟨hseen, hk, hv⟩
    refine (observed_read hm .status hv).after ?_
    rintro _ status v₁ ⟨rfl, hv₁⟩
    split
    · refine .pure ⟨?_, ?_⟩
      · simpa [hseen] using hv₁
      · simp [hseen]
        omega
    · refine (observed_expired hm start hv₁ (by omega) (by omega)).after ?_
      rintro _ _ v₂ ⟨⟨reading, rfl⟩, rfl, hv₂⟩
      split
      next hlate =>
        refine .pure ⟨?_, ?_⟩
        · simpa [hseen, Nat.add_assoc] using hv₂
        · simp [hseen]
          omega
      next hearly =>
        rw [decide_eq_true_iff] at hearly
        refine .pure ⟨?_, by omega, hv₂⟩
        simp [hseen]

/-- Each reply that is taken costs one wait, and another may follow the last
one.  If the observer gives up, it is because there were too many replies. -/
theorem observed_awaitReply (word : Word) (hn : 100000 ≤ n)
    (hw : Shows start w.env)
    (hroom : start + 200001 + 100001 * n ≤ lastMicro) :
    (m.awaitReply word).Observed n w
      (fun events _ _ => clockReadings events ≤
        100001 * ((repliesTaken events).length + 1))
      fun events _ => Dropped word events ∧
        (repliesTaken events).length = n ∧
        clockReadings events ≤ 100001 * n := by
  refine .loop (fun k seen _ v => Dropped word seen ∧
    (repliesTaken seen).length = k ∧ clockReadings seen ≤ 100001 * k ∧
    Shows (start + clockReadings seen) v.env) ?_ ?_
    ⟨.none, rfl, Nat.le_refl 0, hw⟩
  · rintro seen _ v ⟨hdropped, hcount, htime, -⟩
    exact ⟨hdropped, hcount, htime⟩
  · rintro k seen _ v hk ⟨hdropped, hcount, htime, hv⟩
    -- The product is hidden from the linear arithmetic that compares times.
    have hspared : clockReadings seen ≤ 100001 * n :=
      Nat.le_trans htime (Nat.mul_le_mul_left _ (Nat.le_of_lt hk))
    have hleft : start + clockReadings seen + 200001 ≤ lastMicro := by
      generalize 100001 * n = allowed at hspared hroom
      omega
    refine (observed_waitWhileStatus hm 30 (by decide) hn hv hleft).after ?_
    intro waited cleared v₁ ⟨hwaited, hv₁, hreadings⟩
    have hspent : clockReadings seen + clockReadings waited ≤
        100001 * (k + 1) :=
      Nat.add_le_add htime hreadings
    have hnone := repliesTaken_of_watches hwaited.watches
    cases cleared with
    | false =>
      refine .pure ?_
      simpa [Observed.Round, hcount, hnone] using hspent
    | true =>
      refine (observed_read hm .read hv₁).after ?_
      rintro _ v v₂ ⟨rfl, hv₂⟩
      split
      · refine .pure ?_
        simpa [Observed.Round, hcount, hnone] using
          Nat.le_trans hspent (Nat.mul_le_mul_left _ (Nat.le_succ (k + 1)))
      next hv =>
        refine .pure ⟨?_, ?_, ?_, ?_⟩
        · simpa using hdropped.reply hwaited hv
        · simp [hcount, hnone]
        · simpa using hspent
        · simpa [Nat.add_assoc] using hv₂

/-- A call returns, after one wait more than there were replies and one for
room, or there were too many replies for the observer. -/
theorem observed_exchangeWord (word : Word) (hn : 100000 ≤ n)
    (hw : Shows start w.env)
    (hroom : start + 200001 + 100001 * (n + 1) ≤ lastMicro) :
    (m.exchangeWord word).Observed n w
      (fun events _ _ => clockReadings events ≤
        100001 * ((repliesTaken events).length + 2))
      fun events _ => word ∉ repliesTaken events ∧
        (repliesTaken events).length = n ∧
        clockReadings events ≤ 100001 * (n + 1) := by
  refine (observed_waitWhileStatus hm 31 (by decide) hn hw
    (Nat.le_of_add_right_le hroom)).after ?_
  intro waited cleared v ⟨hwaited, hv, hreadings⟩
  have hnone := repliesTaken_of_watches hwaited.watches
  cases cleared with
  | false =>
    refine .pure ?_
    simp [hnone]
    omega
  | true =>
    have hwrite : (m.write .write word).Observed n v (fun events _ v' =>
        events = [.write .write word] ∧
          Shows (start + clockReadings waited) v'.env) fun _ _ => False :=
      .event (m.write_run .write word n v) ⟨rfl, hm.write _ _ _ _ hv⟩
    refine hwrite.after ?_
    rintro _ _ v₁ ⟨rfl, hv₁⟩
    have hleft : start + clockReadings waited + 200001 + 100001 * n ≤
        lastMicro := by
      rw [Nat.mul_succ] at hroom
      generalize 100001 * n = allowed at hroom ⊢
      omega
    have htotal : ∀ {later k}, later ≤ 100001 * k →
        clockReadings waited + later ≤ 100001 * (k + 1) := by
      intro later k hlater
      rw [Nat.add_comm]
      exact Nat.add_le_add hlater hreadings
    have hsent := hwaited.repliesTaken_sent word
    refine (observed_awaitReply hm word hn hv₁ hleft).bind ?_ ?_
    · rintro awaited _ ⟨hdropped, hcount, htime⟩
      refine ⟨?_, ?_, ?_⟩
      · simpa [hsent] using hdropped.not_mem
      · simpa [hsent] using hcount
      · simpa using htotal htime
    · intro awaited came v₂ htime
      have hspent := htotal htime
      cases came with
      | true =>
        refine .pure ?_
        simpa [hsent] using hspent
      | false =>
        refine .pure ?_
        simpa [hsent] using hspent

end Steady

/-! ## Replies without end -/

/-- There is always room for a message and always a reply, but never the one
that is `word`.  `P` is what stays true of the state meanwhile. -/
structure Machine.Floods (m : Machine MailboxRegister σ) (word : Word)
    (P : σ → Prop) : Prop where
  ready : ∀ s, P s → ∀ bit, bit = 30 ∨ bit = 31 →
    (m.bus.read .status s).1.getLsbD bit = false
  foreign : ∀ s, P s → (m.bus.read .read s).1 ≠ word
  now : ∀ s, P s → P (m.clock.now s).2
  read : ∀ s r, P s → P (m.bus.read r s).2
  write : ∀ s, P s → P (m.bus.write .write word s)

section Floods

variable {m : Machine MailboxRegister σ} {word : Word} {P : σ → Prop}
  (hm : m.Floods word P) {n : Nat} {w : World MailboxRegister σ}

include hm

/-- Where the status register is ready, a wait for it takes a single reading of
the clock and not more than one round. -/
theorem observed_ready {bit : Nat} (hbit : bit = 30 ∨ bit = 31)
    (hw : P w.env) :
    (m.waitWhileStatus (BitVec.twoPow 32 bit)).Observed n w
      (fun events cleared w' => cleared = true ∧ clockReadings events = 1 ∧
        repliesTaken events = [] ∧ P w'.env)
      fun events _ => n = 0 ∧ clockReadings events = 1 ∧
        repliesTaken events = [] := by
  have hnow : m.now.Observed n w
      (fun events reading v => events = [.clock reading] ∧ P v.env)
      fun _ _ => False :=
    .event (m.now_run n w) ⟨rfl, hm.now _ hw⟩
  have hstart : (m.deadlineAfter mailboxTimeout).Observed n w
      (fun events _ v => (∃ reading, events = [.clock reading]) ∧ P v.env)
      fun _ _ => False := by
    refine hnow.after ?_
    rintro _ reading v ⟨rfl, hv⟩
    exact .pure ⟨⟨reading, rfl⟩, hv⟩
  refine hstart.after ?_
  rintro _ deadline v ⟨⟨reading, rfl⟩, hv⟩
  refine .loop (fun k seen _ v => k = 0 ∧ seen = [] ∧ P v.env) ?_ ?_
    ⟨rfl, rfl, hv⟩
  · rintro seen _ v ⟨hn, rfl, -⟩
    exact ⟨hn, rfl, rfl⟩
  · rintro k seen _ v - ⟨rfl, rfl, hv⟩
    have hlt : bit < 32 := by omega
    have hclear := (and_twoPow_eq_zero_iff _ hlt).2 (hm.ready _ hv bit hbit)
    have hread : (m.read .status).Observed n v (fun events status v' =>
        events = [.read .status status] ∧ status &&& BitVec.twoPow 32 bit = 0 ∧
          P v'.env) fun _ _ => False :=
      .event (m.read_run .status n v) ⟨rfl, hclear, hm.read _ .status hv⟩
    refine hread.after ?_
    rintro _ status v' ⟨rfl, hstatus, hv'⟩
    rw [if_pos hstatus]
    exact .pure ⟨rfl, rfl, rfl, hv'⟩

/-- Replies are dropped for as long as the observer has patience for. -/
theorem observed_dropping (hw : P w.env) :
    (m.awaitReply word).Observed n w (fun _ _ _ => False)
      fun events _ => (repliesTaken events).length = n ∧
        clockReadings events = n := by
  refine .loop (fun k seen _ v => (repliesTaken seen).length = k ∧
    clockReadings seen = k ∧ P v.env) ?_ ?_ ⟨rfl, rfl, hw⟩
  · rintro seen _ v ⟨hcount, hreadings, -⟩
    exact ⟨hcount, hreadings⟩
  · rintro k seen _ v hk ⟨hcount, hreadings, hv⟩
    refine (observed_ready hm (.inl rfl) hv).bind ?_ ?_
    · rintro _ _ ⟨rfl, -⟩
      exact absurd hk (Nat.not_lt_zero k)
    rintro waited _ v' ⟨rfl, hwaited, hnone, hv'⟩
    have hread : (m.read .read).Observed n v' (fun events reply v'' =>
        events = [.read .read reply] ∧ reply ≠ word ∧ P v''.env)
        fun _ _ => False :=
      .event (m.read_run .read n v')
        ⟨rfl, hm.foreign _ hv', hm.read _ .read hv'⟩
    refine hread.after ?_
    rintro _ reply v'' ⟨rfl, hreply, hv''⟩
    rw [if_neg hreply]
    refine .pure ⟨?_, ?_, hv''⟩
    · simp [hcount, hnone]
    · simp [hreadings, hwaited]

theorem observed_flood (hw : P w.env) :
    (m.exchangeWord word).Observed n w (fun _ _ _ => False)
      fun events _ => (repliesTaken events).length = n ∧
        clockReadings events = n + 1 := by
  refine (observed_ready hm (.inr rfl) hw).bind ?_ ?_
  · rintro events _ ⟨rfl, hreadings, hnone⟩
    exact ⟨congrArg List.length hnone, hreadings⟩
  rintro waited _ v ⟨rfl, hreadings, hnone, hv⟩
  have hwrite : (m.write .write word).Observed n v
      (fun events _ v' => events = [.write .write word] ∧ P v'.env)
      fun _ _ => False :=
    .event (m.write_run .write word n v) ⟨rfl, hm.write _ hv⟩
  refine hwrite.after ?_
  rintro _ _ v₁ ⟨rfl, hv₁⟩
  refine (observed_dropping hm hv₁).bind ?_ fun _ _ _ hnever => hnever.elim
  rintro awaited _ ⟨hcount, hdropped⟩
  refine ⟨?_, ?_⟩
  · simpa [hnone] using hcount
  · simpa [hreadings, hdropped] using Nat.add_comm 1 n

end Floods

/-! ## What bounds a call -/

/-- With a clock that shows one microsecond more at each reading, whatever the
registers show, a call returns after at most 100001 readings for each reply that
it takes and as many again for two more waits, or it has dropped as many replies
to others as its observer has patience for.  These replies are not bounded by
anything: where there is always one, no call ever returns, and each of them
takes up just one reading of the clock. -/
theorem mailbox_bounded_by_replies (m : Machine MailboxRegister σ)
    (address : Word) (channel : Byte) (message : PropertyMessage)
    (w : World MailboxRegister σ) :
    let call := m.mailbox address pure channel message
    let word := mailboxWord address channel
    (∀ Shows start n, m.Steady Shows → Shows start w.env → 100000 ≤ n →
      start + 200001 + 100001 * (n + 1) ≤ lastMicro →
      call.Observed n w
        (fun events result _ =>
          (result = .ok message ∨ result = .error .timeout) ∧
          clockReadings events ≤ 100001 * ((repliesTaken events).length + 2))
        fun events _ => word ∉ repliesTaken events ∧
          (repliesTaken events).length = n ∧
          clockReadings events ≤ 100001 * (n + 1)) ∧
    ∀ P, m.Floods word P → P w.env → ¬ call.Returns w ∧
      ∀ n, call.Observed n w (fun _ _ _ => False) fun events _ =>
        (repliesTaken events).length = n ∧ clockReadings events = n + 1 := by
  intro call word
  constructor
  · intro Shows start n hsteady hw hn hroom
    have hexchange := observed_exchangeWord hsteady word hn hw hroom
    refine (hexchange.and_traces (m.traces_exchangeWord word)).bind
      (fun _ _ h => h) ?_
    intro events result v ⟨hdone, hreadings⟩
    cases result with
    | ok u =>
      refine .pure ⟨.inl rfl, ?_⟩
      simpa using hreadings
    | error e =>
      obtain ⟨rfl, -⟩ := hdone.expired_of_error
      refine .pure ⟨.inr rfl, ?_⟩
      simpa using hreadings
  · intro P hfloods hw
    have hnever : ∀ n, call.Observed n w (fun _ _ _ => False) fun events _ =>
        (repliesTaken events).length = n ∧ clockReadings events = n + 1 :=
      fun n => (observed_flood hfloods hw).bind (fun _ _ h => h)
        fun _ _ _ h => h.elim
    refine ⟨?_, hnever⟩
    rintro ⟨n, result, v, hrun⟩
    obtain ⟨events, v', -, ⟨_, _, h⟩ | ⟨hstop, -⟩⟩ := hnever n
    · exact h
    · rw [hrun] at hstop
      exact nomatch hstop

/-- A bench whose registers are always ready and whose clock moves by a
microsecond at each reading. -/
def floodedBench : World MailboxRegister Bench.MailboxBench :=
  ⟨{ tick := .ofMicros 1 }, []⟩

theorem floodedBench_steady : Bench.MailboxBench.machine.Steady fun t b =>
    b.tick = .ofMicros 1 ∧ b.readings = t where
  shows := by
    rintro _ b ⟨htick, rfl⟩
    show Duration.ofNanos (b.tick.nanos * b.readings) = .ofMicros b.readings
    rw [htick, Nat.mul_comm]
    rfl
  tick := by
    rintro _ b ⟨htick, rfl⟩
    unfold Bench.MailboxBench.machine
    dsimp only
    split
    · exact ⟨htick, rfl⟩
    · exact ⟨htick, rfl⟩
  read := by
    rintro _ b r ⟨htick, rfl⟩
    cases r <;> exact ⟨htick, rfl⟩
  write := by
    rintro _ b r v ⟨htick, rfl⟩
    cases r <;> exact ⟨htick, rfl⟩

/-- The registers are zero, and nothing is going to change that. -/
theorem floodedBench_floods {word : Word} (hword : word ≠ 0) :
    Bench.MailboxBench.machine.Floods word fun b =>
      b.status = 0 ∧ b.read = 0 ∧ b.script = [] where
  ready := by
    rintro b ⟨hstatus, -⟩ bit -
    show b.status.getLsbD bit = false
    rw [hstatus]
    exact BitVec.getLsbD_zero
  foreign := by
    rintro b ⟨-, hread, -⟩
    show b.read ≠ word
    rw [hread]
    exact hword.symm
  now := by
    rintro b ⟨hstatus, hread, hscript⟩
    unfold Bench.MailboxBench.machine
    dsimp only
    rw [hscript]
    exact ⟨hstatus, hread, hscript⟩
  read := by
    rintro b r hb
    cases r <;> exact hb
  write := fun _ hb => hb

/-- A call on it that asks for power never returns: an observer with patience
for a hundred thousand rounds sees as many replies dropped. -/
theorem flooded_call_never_returns :
    let call := Bench.MailboxBench.mailbox 8 (.switchPower 3 true)
    let word := mailboxWord Bench.MailboxBench.messageAddress 8
    0 + 200001 + 100001 * (100000 + 1) ≤ lastMicro ∧ word ≠ 0 ∧
    ¬ call.Returns floodedBench ∧
    call.Observed 100000 floodedBench (fun _ _ _ => False)
      (fun events _ => (repliesTaken events).length = 100000 ∧
        clockReadings events = 100001) ∧
    call.Observed 100000 floodedBench
      (fun events _ _ => clockReadings events ≤
        100001 * ((repliesTaken events).length + 2))
      fun events _ => word ∉ repliesTaken events := by
  intro call word
  have hroom : 0 + 200001 + 100001 * (100000 + 1) ≤ lastMicro := by decide
  have hword : word ≠ 0 := by decide
  obtain ⟨hbounded, hflooded⟩ := mailbox_bounded_by_replies
    Bench.MailboxBench.machine Bench.MailboxBench.messageAddress 8
    (.switchPower 3 true) floodedBench
  obtain ⟨hnever, hdrops⟩ :=
    hflooded _ (floodedBench_floods hword) ⟨rfl, rfl, rfl⟩
  have hsteady := hbounded _ 0 100000 floodedBench_steady ⟨rfl, rfl⟩
    (Nat.le_refl _) hroom
  refine ⟨hroom, hword, hnever, hdrops 100000, ?_⟩
  exact (hsteady.mono fun _ _ _ h => h.2).weaken fun _ _ h => h.1

end UsbHost
