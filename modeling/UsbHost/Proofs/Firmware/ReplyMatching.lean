import UsbHost.Bench.Mailbox
import UsbHost.Firmware.Power
import UsbHost.Proofs.Machine.Traces

/-!
# Replies of the firmware

The mailbox carries the replies to everybody's requests.  A call must not take a
reply that belongs to another request for its own, and must not hand over its
message a second time, whatever the registers show in between.  So a call is
described here event by event: it waits for room, writes its word once, and then
drops replies until one is that word or a wait for the next one has taken too
long.

## Main results

* `StatusWait`, `Dropped`, `ReplyAwaited` — the parts of a call.
* `Exchanged` — whole calls and what they come to.
* `Machine.traces_exchangeWord` — what a call does on any hardware.
* `mailbox_matches_replies` — the same in terms of what has been written to the
  mailbox and read from it.
-/

namespace UsbHost

open Run

variable {σ : Type} {bit : Nat} {word : Word}
  {events : List (Event MailboxRegister)}

/-! ## The language of calls -/

namespace Event

/-- The event is a look at a wait that is not over: the bit is set, and the
deadline has not come. -/
def Stalls (bit : Nat) (d : Deadline) : Event MailboxRegister → Prop
  | .read .status v => v.getLsbD bit = true
  | .clock t => d.reached t = false
  | _ => False

/-- The event looks at the clock or the status register. -/
def Watches : Event MailboxRegister → Prop
  | .clock _ | .read .status _ => True
  | _ => False

/-- The event leaves the registers to themselves. -/
def Listens : Event MailboxRegister → Prop
  | .clock _ | .read _ _ => True
  | _ => False

/-- The reply that the event takes from the mailbox. -/
def reply? : Event MailboxRegister → Option Word
  | .read .read v => some v
  | _ => none

end Event

/-- A wait for a bit of the status register that is not over. -/
def StatusWaiting (bit : Nat) (events : List (Event MailboxRegister)) : Prop :=
  ∃ start before, events = .clock start :: before ∧
    ∀ e ∈ before, e.Stalls bit (.ofStart start mailboxTimeout)

/-- A wait for a bit of the status register.  Either a reading of the register
shows it cleared, or one shows it set and a reading of the clock after that is
100 milliseconds later than the one with which the wait began. -/
inductive StatusWait (bit : Nat) : List (Event MailboxRegister) → Bool → Prop
  | cleared {start : Duration} {before : List (Event MailboxRegister)}
    {v : Word}
    (hbefore : ∀ e ∈ before, e.Stalls bit (.ofStart start mailboxTimeout))
    (hv : v.getLsbD bit = false) :
    StatusWait bit (.clock start :: (before ++ [.read .status v])) true
  | expired {start t : Duration} {before : List (Event MailboxRegister)}
    {v : Word}
    (hbefore : ∀ e ∈ before, e.Stalls bit (.ofStart start mailboxTimeout))
    (hv : v.getLsbD bit = true) (hlate : start.nanos + 100000000 ≤ t.nanos) :
    StatusWait bit
      (.clock start :: (before ++ [.read .status v, .clock t])) false

/-- Replies that are not `word`, each of them taken when the status register
has just shown that there is one. -/
inductive Dropped (word : Word) : List (Event MailboxRegister) → Prop
  | none : Dropped word []
  | reply {before waited : List (Event MailboxRegister)} {v : Word}
    (hbefore : Dropped word before) (hwaited : StatusWait 30 waited true)
    (hv : v ≠ word) : Dropped word (before ++ (waited ++ [.read .read v]))

/-- Replies are taken until one is `word`, or until one stays out. -/
inductive ReplyAwaited (word : Word) :
    List (Event MailboxRegister) → Bool → Prop
  | matched {dropped waited : List (Event MailboxRegister)}
    (hdropped : Dropped word dropped) (hwaited : StatusWait 30 waited true) :
    ReplyAwaited word (dropped ++ (waited ++ [.read .read word])) true
  | expired {dropped waited : List (Event MailboxRegister)}
    (hdropped : Dropped word dropped) (hwaited : StatusWait 30 waited false) :
    ReplyAwaited word (dropped ++ waited) false

/-- Replies have been dropped, and perhaps the next one is waited for. -/
inductive AwaitingReply (word : Word) : List (Event MailboxRegister) → Prop
  | between {dropped : List (Event MailboxRegister)}
    (hdropped : Dropped word dropped) : AwaitingReply word dropped
  | waiting {dropped waiting : List (Event MailboxRegister)}
    (hdropped : Dropped word dropped) (hwaiting : StatusWaiting 30 waiting) :
    AwaitingReply word (dropped ++ waiting)

/-- The events of a call and its result.  The word is written as soon as the
status register shows room for it, and not at all if it shows none in time. -/
inductive Exchanged (word : Word) :
    List (Event MailboxRegister) → Except MailboxError Unit → Prop
  | full {waited : List (Event MailboxRegister)}
    (hwaited : StatusWait 31 waited false) :
    Exchanged word waited (.error .timeout)
  | answered {waited awaited : List (Event MailboxRegister)}
    (hwaited : StatusWait 31 waited true)
    (hawaited : ReplyAwaited word awaited true) :
    Exchanged word (waited ++ .write .write word :: awaited) (.ok ())
  | unanswered {waited awaited : List (Event MailboxRegister)}
    (hwaited : StatusWait 31 waited true)
    (hawaited : ReplyAwaited word awaited false) :
    Exchanged word (waited ++ .write .write word :: awaited) (.error .timeout)

/-- The events of a call that is not over. -/
inductive Exchanging (word : Word) : List (Event MailboxRegister) → Prop
  | sending {waiting : List (Event MailboxRegister)}
    (hwaiting : StatusWaiting 31 waiting) : Exchanging word waiting
  | awaiting {waited awaiting : List (Event MailboxRegister)}
    (hwaited : StatusWait 31 waited true)
    (hawaiting : AwaitingReply word awaiting) :
    Exchanging word (waited ++ .write .write word :: awaiting)

/-- The word has been written at most once, right after a reading of the status
register that showed room for it, and nothing else has been written. -/
inductive SentOnce (word : Word) : List (Event MailboxRegister) → Prop
  | unsent {events : List (Event MailboxRegister)}
    (h : ∀ e ∈ events, e.Listens) : SentOnce word events
  | sent {before after : List (Event MailboxRegister)} {v : Word}
    (hbefore : ∀ e ∈ before, e.Listens) (hv : v.getLsbD 31 = false)
    (hafter : ∀ e ∈ after, e.Listens) :
    SentOnce word (before ++ .read .status v :: .write .write word :: after)

/-- The replies that have been taken from the mailbox. -/
def repliesTaken (events : List (Event MailboxRegister)) : List Word :=
  events.filterMap Event.reply?

/-! ## What a call does -/

/-- A bit is clear just if masking the others leaves nothing. -/
theorem and_twoPow_eq_zero_iff (v : Word) {bit : Nat} (hbit : bit < 32) :
    v &&& BitVec.twoPow 32 bit = 0 ↔ v.getLsbD bit = false := by
  have hne : BitVec.twoPow 32 bit ≠ 0 := by
    intro h
    have hget := congrArg (·.getLsbD bit) h
    simp [hbit] at hget
  rw [BitVec.and_twoPow]
  cases v.getLsbD bit with
  | false => exact iff_of_true rfl rfl
  | true => exact iff_of_false hne nofun

namespace Machine

variable (m : Machine MailboxRegister σ)

theorem traces_waitWhileStatus (bit : Nat) (hbit : bit < 32) :
    (m.waitWhileStatus (BitVec.twoPow 32 bit)).Traces (StatusWait bit)
      (StatusWaiting bit) := by
  refine (m.traces_deadlineAfter _).after ?_
  rintro _ deadline ⟨start, rfl, rfl⟩
  -- Nothing seen since the start has ended the wait.
  refine .loop (fun seen _ =>
    ∀ e ∈ seen, e.Stalls bit (.ofStart start mailboxTimeout))
    (fun seen _ hseen => ⟨start, seen, rfl, hseen⟩) (fun seen _ hseen => ?_)
    nofun
  refine (m.traces_read .status).after ?_
  rintro _ v rfl
  by_cases hv : v &&& BitVec.twoPow 32 bit = 0
  · rw [if_pos hv]
    exact .pure (.cleared hseen ((and_twoPow_eq_zero_iff v hbit).1 hv))
  · rw [if_neg hv]
    have hset : v.getLsbD bit = true :=
      Bool.of_not_eq_false (mt (and_twoPow_eq_zero_iff v hbit).2 hv)
    have hlooked : ∀ e ∈ [Event.read .status v],
        e.Stalls bit (.ofStart start mailboxTimeout) :=
      List.forall_mem_singleton.2 hset
    refine (m.traces_expired _).after fun checked late hchecked => ?_
    cases late with
    | true =>
      obtain ⟨-, h⟩ | ⟨t, rfl, ht⟩ := hchecked
      · exact nomatch h
      · exact .pure (.expired hseen hset
          (Deadline.reached_ofStart_iff.1 ht.symm))
    | false =>
      have hearly : ∀ e ∈ checked,
          e.Stalls bit (.ofStart start mailboxTimeout) := by
        obtain ⟨rfl, -⟩ | ⟨t, rfl, ht⟩ := hchecked
        · exact nofun
        · exact List.forall_mem_singleton.2 ht.symm
      refine .pure ?_
      rw [List.append_nil]
      exact List.forall_mem_append.2
        ⟨hseen, List.forall_mem_append.2 ⟨hlooked, hearly⟩⟩

/-- Taking replies. -/
theorem traces_awaitReply (word : Word) :
    (m.awaitReply word).Traces (ReplyAwaited word) (AwaitingReply word) := by
  -- A round begins with nothing but dropped replies behind it, and each round
  -- has a deadline of its own.
  refine .loop (fun seen _ => Dropped word seen)
    (fun _ _ hseen => .between hseen) (fun seen _ hseen => ?_) .none
  refine (m.traces_waitWhileStatus 30 (by decide)).bind
    (fun _ hwaiting => .waiting hseen hwaiting) fun waited cleared hwaited => ?_
  cases cleared with
  | false =>
    refine .pure ?_
    rw [List.append_nil]
    exact .expired hseen hwaited
  | true =>
    refine (m.traces_read .read).after ?_
    rintro _ v rfl
    by_cases hv : v = word
    · subst hv
      rw [if_pos rfl]
      refine .pure ?_
      rw [List.append_nil]
      exact .matched hseen hwaited
    · rw [if_neg hv]
      refine .pure ?_
      rw [List.append_nil]
      exact .reply hseen hwaited hv

/-- A call, event by event. -/
theorem traces_exchangeWord (word : Word) :
    (m.exchangeWord word).Traces (Exchanged word) (Exchanging word) := by
  refine (m.traces_waitWhileStatus 31 (by decide)).bind
    (fun _ hwaiting => .sending hwaiting) fun waited cleared hwaited => ?_
  cases cleared with
  | false =>
    refine .pure ?_
    rw [List.append_nil]
    exact .full hwaited
  | true =>
    refine (m.traces_write .write word).after ?_
    rintro _ _ rfl
    refine (m.traces_awaitReply word).bind
      (fun _ hawaiting => .awaiting hwaited hawaiting) fun awaited came h => ?_
    cases came with
    | true =>
      refine .pure ?_
      rw [List.append_nil]
      exact .answered hwaited h
    | false =>
      refine .pure ?_
      rw [List.append_nil]
      exact .unanswered hwaited h

end Machine

/-! ## What has been written and read -/

theorem mailboxWord_channel (address : Word) (channel : Byte) :
    mailboxWord address channel &&& 0xF = channel.setWidth 32 &&& 0xF := by
  have hfree : ~~~(0xF : Word) &&& 0xF = 0#32 := by decide
  unfold mailboxWord
  rw [BitVec.and_or_distrib_right, BitVec.and_assoc, hfree, BitVec.and_assoc,
    BitVec.and_self, BitVec.and_zero, BitVec.zero_or]

namespace Event

variable {e : Event MailboxRegister} {d : Deadline}

theorem Stalls.watches (h : e.Stalls bit d) : e.Watches := by
  match e, h with
  | .clock _, _ => trivial
  | .read .status _, _ => trivial

theorem Watches.listens (h : e.Watches) : e.Listens := by
  match e, h with
  | .clock _, _ => trivial
  | .read .status _, _ => trivial

theorem Watches.reply? (h : e.Watches) : e.reply? = none := by
  match e, h with
  | .clock _, _ => rfl
  | .read .status _, _ => rfl

end Event

@[simp] theorem repliesTaken_nil : repliesTaken [] = [] := rfl

@[simp] theorem repliesTaken_append
    (events later : List (Event MailboxRegister)) :
    repliesTaken (events ++ later) =
      repliesTaken events ++ repliesTaken later :=
  List.filterMap_append

@[simp] theorem repliesTaken_reply (v : Word)
    (later : List (Event MailboxRegister)) :
    repliesTaken (.read .read v :: later) = v :: repliesTaken later := rfl

@[simp] theorem repliesTaken_write (r : MailboxRegister) (v : Word)
    (later : List (Event MailboxRegister)) :
    repliesTaken (.write r v :: later) = repliesTaken later := rfl

theorem listens_of_watches (h : ∀ e ∈ events, e.Watches) :
    ∀ e ∈ events, e.Listens :=
  fun e he => (h e he).listens

theorem repliesTaken_of_watches (h : ∀ e ∈ events, e.Watches) :
    repliesTaken events = [] :=
  List.filterMap_eq_nil_iff.2 fun e he => (h e he).reply?

theorem StatusWaiting.watches (h : StatusWaiting bit events) :
    ∀ e ∈ events, e.Watches := by
  obtain ⟨start, before, rfl, hbefore⟩ := h
  exact List.forall_mem_cons.2 ⟨trivial, fun e he => (hbefore e he).watches⟩

theorem StatusWait.watches {cleared : Bool}
    (h : StatusWait bit events cleared) : ∀ e ∈ events, e.Watches := by
  cases h with
  | cleared hbefore hv =>
    refine List.forall_mem_cons.2 ⟨trivial, List.forall_mem_append.2 ⟨?_, ?_⟩⟩
    · exact fun e he => (hbefore e he).watches
    · exact List.forall_mem_singleton.2 trivial
  | expired hbefore hv hlate =>
    refine List.forall_mem_cons.2 ⟨trivial, List.forall_mem_append.2 ⟨?_, ?_⟩⟩
    · exact fun e he => (hbefore e he).watches
    · exact List.forall_mem_cons.2
        ⟨trivial, List.forall_mem_singleton.2 trivial⟩

/-- A wait and the reply that it has announced. -/
theorem StatusWait.then_reply (h : StatusWait bit events true) (v : Word) :
    (∀ e ∈ events ++ [.read .read v], e.Listens) ∧
      repliesTaken (events ++ [.read .read v]) = [v] := by
  constructor
  · exact List.forall_mem_append.2
      ⟨listens_of_watches h.watches, List.forall_mem_singleton.2 trivial⟩
  · rw [repliesTaken_append, repliesTaken_of_watches h.watches]
    rfl

theorem Dropped.listens (h : Dropped word events) :
    ∀ e ∈ events, e.Listens := by
  induction h with
  | none => exact nofun
  | reply hbefore hwaited hv ih =>
    exact List.forall_mem_append.2 ⟨ih, (hwaited.then_reply _).1⟩

/-- No reply that has been dropped was the one that was waited for. -/
theorem Dropped.not_mem (h : Dropped word events) :
    word ∉ repliesTaken events := by
  induction h with
  | none => exact nofun
  | reply hbefore hwaited hv ih =>
    rw [repliesTaken_append, (hwaited.then_reply _).2]
    exact List.not_mem_append ih (mt List.mem_singleton.1 hv.symm)

namespace ReplyAwaited

theorem listens {came : Bool} (h : ReplyAwaited word events came) :
    ∀ e ∈ events, e.Listens := by
  cases h with
  | matched hdropped hwaited =>
    exact List.forall_mem_append.2
      ⟨hdropped.listens, (hwaited.then_reply word).1⟩
  | expired hdropped hwaited =>
    exact List.forall_mem_append.2
      ⟨hdropped.listens, listens_of_watches hwaited.watches⟩

/-- The reply that is accepted is the last one, and none before it was the
same. -/
theorem replies_of_matched (h : ReplyAwaited word events true) :
    ∃ others, repliesTaken events = others ++ [word] ∧ word ∉ others := by
  cases h with
  | matched hdropped hwaited =>
    refine ⟨_, ?_, hdropped.not_mem⟩
    rw [repliesTaken_append, (hwaited.then_reply word).2]

theorem replies_of_expired (h : ReplyAwaited word events false) :
    word ∉ repliesTaken events := by
  cases h with
  | expired hdropped hwaited =>
    rw [repliesTaken_append, repliesTaken_of_watches hwaited.watches,
      List.append_nil]
    exact hdropped.not_mem

end ReplyAwaited

theorem AwaitingReply.listens (h : AwaitingReply word events) :
    ∀ e ∈ events, e.Listens := by
  cases h with
  | between hdropped => exact hdropped.listens
  | waiting hdropped hwaiting =>
    exact List.forall_mem_append.2
      ⟨hdropped.listens, listens_of_watches hwaiting.watches⟩

/-- What is written after a wait for room, if nothing else is written later. -/
theorem StatusWait.then_write (h : StatusWait 31 events true)
    {later : List (Event MailboxRegister)} (hlater : ∀ e ∈ later, e.Listens) :
    SentOnce word (events ++ .write .write word :: later) := by
  cases h with
  | @cleared start before v hbefore hv =>
    have hearlier : ∀ e ∈ .clock start :: before, e.Listens :=
      List.forall_mem_cons.2
        ⟨trivial, fun e he => (hbefore e he).watches.listens⟩
    have hsent : SentOnce word ((.clock start :: before) ++
        .read .status v :: .write .write word :: later) :=
      .sent hearlier hv hlater
    simpa using hsent

/-- What is written takes no reply. -/
theorem StatusWait.repliesTaken_sent (h : StatusWait 31 events true)
    (word : Word) (later : List (Event MailboxRegister)) :
    repliesTaken (events ++ .write .write word :: later) =
      repliesTaken later := by
  rw [repliesTaken_append, repliesTaken_of_watches h.watches, List.nil_append,
    repliesTaken_write]

namespace Exchanged

variable {result : Except MailboxError Unit}

theorem sentOnce (h : Exchanged word events result) :
    SentOnce word events := by
  cases h with
  | full hwaited => exact .unsent (listens_of_watches hwaited.watches)
  | answered hwaited hawaited => exact hwaited.then_write hawaited.listens
  | unanswered hwaited hawaited => exact hwaited.then_write hawaited.listens

theorem replies_of_ok (h : Exchanged word events (.ok ())) :
    ∃ others, repliesTaken events = others ++ [word] ∧ word ∉ others := by
  cases h with
  | answered hwaited hawaited =>
    rw [hwaited.repliesTaken_sent]
    exact hawaited.replies_of_matched

/-- The reply that is accepted has just been announced. -/
theorem announced_of_ok (h : Exchanged word events (.ok ())) :
    ∃ before status, status.getLsbD 30 = false ∧
      events = before ++ [.read .status status, .read .read word] := by
  cases h with
  | @answered waited _ hwaited hawaited =>
    cases hawaited with
    | @matched dropped announced hdropped hannounced =>
      cases hannounced with
      | @cleared start before v hbefore hv =>
        refine ⟨waited ++ .write .write word ::
          (dropped ++ .clock start :: before), v, hv, ?_⟩
        simp

theorem replies_of_error {e : MailboxError}
    (h : Exchanged word events (.error e)) : word ∉ repliesTaken events := by
  cases h with
  | full hwaited =>
    rw [repliesTaken_of_watches hwaited.watches]
    exact nofun
  | unanswered hwaited hawaited =>
    rw [hwaited.repliesTaken_sent]
    exact hawaited.replies_of_expired

/-- A call fails for one reason alone: in the last of its waits the register
last showed the bit set, and the clock was late after that. -/
theorem expired_of_error {e : MailboxError}
    (h : Exchanged word events (.error e)) :
    e = .timeout ∧ ∃ earlier waited bit, events = earlier ++ waited ∧
      StatusWait bit waited false ∧
      (bit = 31 ∧ earlier = [] ∨ bit = 30) := by
  cases h with
  | full hwaited => exact ⟨rfl, [], _, 31, rfl, hwaited, .inl ⟨rfl, rfl⟩⟩
  | @unanswered waited _ hwaited hawaited =>
    cases hawaited with
    | @expired dropped late hdropped hlate =>
      refine ⟨rfl, waited ++ .write .write word :: dropped, late, 30, ?_, hlate,
        .inr rfl⟩
      rw [List.append_assoc, List.cons_append]

end Exchanged

theorem Exchanging.sentOnce (h : Exchanging word events) :
    SentOnce word events := by
  cases h with
  | sending hwaiting => exact .unsent (listens_of_watches hwaiting.watches)
  | awaiting hwaited hawaiting => exact hwaited.then_write hawaiting.listens

/-! ## Replies that match -/

section Calls

variable (m : Machine MailboxRegister σ) (address : Word)
  (collect : PropertyMessage → Run MailboxRegister σ PropertyMessage)
  (channel : Byte) (message : PropertyMessage)

/-- A call on any hardware.  Its word carries the channel, and is written at
most once, right after a reading of the status register that shows room for it.
If the call returns a reply, the last word taken from the mailbox was its own,
taken right after a reading that announced one, and every word taken before was
another and has been dropped.  It fails only by a wait that has taken too long:
the register last showed the bit that was waited for still set, and the clock
was 100 milliseconds later than when the wait began.  A call that an observer
gives up has done the beginning of such a call. -/
theorem mailbox_matches_replies (n : Nat) (w : World MailboxRegister σ) :
    let call := m.mailbox address collect channel message
    let word := mailboxWord address channel
    word &&& 0xF = channel.setWidth 32 &&& 0xF ∧
    (∀ reply w', call n w = .ok (.ok reply) w' →
      ∃ events v, w.Through events v ∧ Exchanged word events (.ok ()) ∧
        SentOnce word events ∧
        (∃ others, repliesTaken events = others ++ [word] ∧ word ∉ others) ∧
        (∃ before status, status.getLsbD 30 = false ∧
          events = before ++ [.read .status status, .read .read word]) ∧
        collect message n v = .ok reply w') ∧
    (∀ e w', call n w = .ok (.error e) w' →
      ∃ events, w.Through events w' ∧ Exchanged word events (.error e) ∧
        SentOnce word events ∧ word ∉ repliesTaken events ∧ e = .timeout ∧
        ∃ earlier waited bit, events = earlier ++ waited ∧
          StatusWait bit waited false ∧
          (bit = 31 ∧ earlier = [] ∨ bit = 30)) ∧
    ∀ halt w', call n w = .error halt w' →
      ∃ events v, w.Through events v ∧ SentOnce word events ∧
        (Exchanging word events ∧ w' = v ∨
          Exchanged word events (.ok ()) ∧
            collect message n v = .error halt w') := by
  intro call word
  have htraces := m.traces_exchangeWord word
  refine ⟨mailboxWord_channel address channel, ?_, ?_, ?_⟩
  · intro reply w' hcall
    obtain ⟨r, v, hexchange, hrest⟩ := bind_eq_ok.1 hcall
    obtain ⟨events, hevents, hdone⟩ := htraces.of_run hexchange
    cases r with
    | error e => exact nomatch hrest
    | ok u =>
      obtain ⟨reply', v', hcollect, hreturn⟩ := bind_eq_ok.1 hrest
      cases hreturn
      exact ⟨events, v, hevents, hdone, hdone.sentOnce, hdone.replies_of_ok,
        hdone.announced_of_ok, hcollect⟩
  · intro e w' hcall
    obtain ⟨r, v, hexchange, hrest⟩ := bind_eq_ok.1 hcall
    obtain ⟨events, hevents, hdone⟩ := htraces.of_run hexchange
    cases r with
    | error e' =>
      cases hrest
      exact ⟨events, hevents, hdone, hdone.sentOnce, hdone.replies_of_error,
        hdone.expired_of_error⟩
    | ok u =>
      obtain ⟨reply', v', hcollect, hreturn⟩ := bind_eq_ok.1 hrest
      exact nomatch hreturn
  · intro halt w' hcall
    obtain hexchange | ⟨r, v, hexchange, hrest⟩ := bind_eq_error.1 hcall
    · obtain ⟨events, hevents, hbegun⟩ := (htraces w).error n _ _ hexchange
      exact ⟨events, w', hevents, hbegun.sentOnce, .inl ⟨hbegun, rfl⟩⟩
    · obtain ⟨events, hevents, hdone⟩ := htraces.of_run hexchange
      cases r with
      | error e => exact nomatch hrest
      | ok u =>
        obtain hcollect | ⟨reply, v', -, hreturn⟩ := bind_eq_error.1 hrest
        · exact ⟨events, v, hevents, hdone.sentOnce, .inr ⟨hdone, hcollect⟩⟩
        · exact nomatch hreturn

end Calls

/-- A bench on which the first reply belongs to somebody else. -/
def disturbedBench : World MailboxRegister Bench.MailboxBench :=
  ⟨{ tick := .ofMicros 1
     script := [{}, { echo := some 0x10 }, { echo := some 0 }] }, []⟩

/-- It is dropped, and the second one is taken. -/
theorem foreign_reply_dropped :
    let word := mailboxWord Bench.MailboxBench.messageAddress 8
    let message : PropertyMessage := .switchPower 3 true
    ∃ w' events,
      Bench.MailboxBench.mailbox 8 message 2 disturbedBench =
        .ok (.ok message) w' ∧
      disturbedBench.Through events w' ∧ Exchanged word events (.ok ()) ∧
      SentOnce word events ∧ repliesTaken events = [word ^^^ 0x10, word] := by
  intro word message
  obtain ⟨-, hreplies, -⟩ := mailbox_matches_replies Bench.MailboxBench.machine
    Bench.MailboxBench.messageAddress pure 8 message 2 disturbedBench
  obtain ⟨w', hcall, hlog⟩ : ∃ w',
      Bench.MailboxBench.mailbox 8 message 2 disturbedBench =
        .ok (.ok message) w' ∧
      repliesTaken w'.log.reverse = [word ^^^ 0x10, word] :=
    ⟨_, rfl, by decide⟩
  obtain ⟨events, v, hevents, hexchanged, hsent, -, -, hcollect⟩ :=
    hreplies _ _ hcall
  cases hcollect
  have hwhole : events = w'.log.reverse := by
    rw [hevents, List.reverse_append, List.reverse_reverse]
    rfl
  exact ⟨w', events, hcall, hevents, hexchanged, hsent, hwhole ▸ hlog⟩

end UsbHost
