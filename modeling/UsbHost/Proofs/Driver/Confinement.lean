import UsbHost.Proofs.Driver.Course
import UsbHost.Proofs.Host.Waits

/-!
# An exchange stays inside its channel

The channels of the core share a bus, an interrupt status and a transmit FIFO,
and nothing but the driver keeps their exchanges apart.  An exchange writes to
the registers and the FIFO window of its own channel only, apart from the
start-of-frame interrupt; it programs the channel once; and it pushes the words
of its packet once it has seen that there is room for all of them.  Only one that
has words to send can be refused, when it has waited for room for them and a look
after the time for that still shows too little; then it ends as an error and has
programmed nothing.

## Main results

* `Exchange.Course.confined`, `Exchange.Underway.confined` — what is written.
* `Exchange.Course.launches_or_refused` — what is programmed, or why nothing is.
* `transfer_confined` — exchanges on any hardware, and the end of those for which
  there is no room.
-/

namespace UsbHost

open Run Bench

variable {σ : Type}

/-! ## What may be written -/

/-- A write goes to the registers or the FIFO window of the exchange's channel,
or acknowledges a start of frame for a control packet. -/
def Exchange.Confines (x : Exchange) : Event Register → Prop
  | .write (.channel c _) _ => c = x.channel
  | .write (.fifo c) _ => c = x.channel
  | .write .interruptStatus v =>
    v = CoreInterrupts.startOfFrame.bits ∧ x.type = .control
  | .write _ _ => False
  | _ => True

/-- The event programs a channel: it sets the size of a transfer, enables the
channel or hands it a word to send. -/
def Event.OfLaunch : Event Register → Prop
  | .write (.channel _ .transferSize) _ => True
  | .write (.channel _ .characteristics) v =>
    ChannelCharacteristics.enable.get ⟨v⟩ = true ∧
      ChannelCharacteristics.disable.get ⟨v⟩ = false
  | .write (.fifo _) _ => True
  | _ => False

/-- The channel of the exchange is programmed once.  Its transfer size comes
first; it is started between two barriers; and then the words are pushed, for
which there was room when this was last looked at. -/
def Exchange.Launches (x : Exchange) (words : List Word)
    (events : List (Event Register)) : Prop :=
  ∃ before size launch after,
    events = before ++ .write (.channel x.channel .transferSize) size ::
      .barrier :: launch :: .barrier ::
      (words.map (.write (.fifo x.channel)) ++ after) ∧
    x.Starts launch ∧
    (∀ e ∈ before, ¬ e.OfLaunch) ∧ (∀ e ∈ after, ¬ e.OfLaunch) ∧
    (words ≠ [] → ∃ earlier v, before = earlier ++ [.read .npTxStatus v] ∧
      words.length ≤ v.freeWords)

/-- The exchange is refused.  It has words to send and has waited for room for
them; the wait was given up, with less room at the last look, which came after
the time for it; and its channel has not been programmed. -/
structure Exchange.Refused (x : Exchange) (timeout : Duration)
    (words : List Word) (events : List (Event Register)) : Prop where
  sends : x.direction = .toDevice
  nonempty : words ≠ []
  crowded : ∃ before waited, events = before ++ waited ∧
    GivenUp timeout .npTxStatus (fun v => words.length ≤ v.freeWords) waited
  unprogrammed : ∀ e ∈ events, ¬ e.OfLaunch

section Course

variable {s : Link} {x : Exchange} {room : Nat} {buffer : List Byte}
  {settings : Settings} {events : List (Event Register)}

theorem Exchange.Surrounds.confined {e : Event Register}
    (h : x.Surrounds e) : x.Confines e := by
  unfold Exchange.Surrounds at h
  split at h
  · trivial
  · trivial
  · exact h.1
  · exact h.1
  · exact h.1
  · exact h
  · exact h.elim

theorem Exchange.Surrounds.not_ofLaunch {e : Event Register}
    (h : x.Surrounds e) : ¬ e.OfLaunch := by
  unfold Exchange.Surrounds at h
  split at h
  · exact id
  · exact id
  · rintro ⟨-, hdisable⟩
    rw [h.2] at hdisable
    exact nomatch hdisable
  · exact id
  · exact id
  · exact id
  · exact h.elim

theorem confines_launching (oddFrame : Bool) :
    ∀ e ∈ x.launching s room buffer oddFrame, x.Confines e := by
  have hwords : ∀ e ∈ (packetWords (x.packet s room buffer)).map
      (Event.write (.fifo x.channel)), x.Confines e := by
    intro e he
    obtain ⟨v, -, rfl⟩ := List.mem_map.1 he
    exact rfl
  unfold Exchange.launching Exchange.pushing
  refine List.forall_mem_cons.2 ⟨rfl, List.forall_mem_cons.2 ⟨trivial, ?_⟩⟩
  exact List.forall_mem_cons.2 ⟨rfl, List.forall_mem_cons.2 ⟨trivial, hwords⟩⟩

/-- A launch with what surrounds it is confined. -/
theorem confines_launched {before after : List (Event Register)}
    {oddFrame : Bool} {start : Duration}
    (hbefore : ∀ e ∈ before, x.Surrounds e)
    (hafter : ∀ e ∈ after, x.Surrounds e) :
    ∀ e ∈ before ++ (x.launching s room buffer oddFrame ++
      .clock start :: after), x.Confines e := by
  refine List.forall_mem_append.2 ⟨fun e he => (hbefore e he).confined, ?_⟩
  refine List.forall_mem_append.2 ⟨confines_launching oddFrame, ?_⟩
  exact List.forall_mem_cons.2
    ⟨trivial, fun e he => (hafter e he).confined⟩

theorem launches_launched {before after : List (Event Register)}
    {oddFrame : Bool} {start : Duration}
    (hbefore : ∀ e ∈ before, x.Surrounds e)
    (hfits : x.Fits s room buffer before)
    (hafter : ∀ e ∈ after, x.Surrounds e) :
    x.Launches (packetWords (x.packet s room buffer))
      (before ++ (x.launching s room buffer oddFrame ++
        .clock start :: after)) := by
  refine ⟨before, _, _, .clock start :: after, rfl,
    starts_enableWord oddFrame, ?_, ?_, hfits⟩
  · exact fun e he => (hbefore e he).not_ofLaunch
  · exact List.forall_mem_cons.2
      ⟨id, fun e he => (hafter e he).not_ofLaunch⟩

/-- What an exchange writes that has ended. -/
theorem Exchange.Course.confined {moved : Moved TransferError}
    (h : x.Course s room buffer settings events moved) :
    ∀ e ∈ events, x.Confines e := by
  cases h with
  | refused hbefore hcrowded =>
    exact fun e he => (hcrowded.surrounds hbefore e he).confined
  | launched hbefore hfits hafter =>
    exact confines_launched hbefore hafter.surrounds

/-- What an exchange writes that has not ended. -/
theorem Exchange.Underway.confined
    (h : x.Underway s room buffer settings events) :
    ∀ e ∈ events, x.Confines e := by
  cases h with
  | preparing hbefore => exact fun e he => (hbefore e he).confined
  | launched hbefore hfits hafter =>
    exact confines_launched hbefore hafter.surrounds

/-- Only an exchange that sends has words to push. -/
theorem sends_of_words (h : packetWords (x.packet s room buffer) ≠ []) :
    x.direction = .toDevice := by
  cases hx : x.direction with
  | toDevice => rfl
  | toHost =>
    rw [Exchange.packet_of_receives hx] at h
    exact (h rfl).elim

/-- An exchange programs its channel once, or it is refused. -/
theorem Exchange.Course.launches_or_refused {moved : Moved TransferError}
    (h : x.Course s room buffer settings events moved) :
    let words := packetWords (x.packet s room buffer)
    x.Launches words events ∨
      x.Refused settings.txFifoTimeout words events ∧
        moved = ⟨.error .error, buffer⟩ := by
  cases h with
  | @refused before waited hbefore hcrowded =>
    have hall := hcrowded.surrounds hbefore
    obtain ⟨hwords, hgivenUp⟩ := hcrowded
    refine .inr ⟨?_, rfl⟩
    exact ⟨sends_of_words hwords, hwords, ⟨before, waited, rfl, hgivenUp⟩,
      fun e he => (hall e he).not_ofLaunch⟩
  | launched hbefore hfits hafter =>
    exact .inl (launches_launched hbefore hfits hafter.surrounds)

theorem Exchange.Underway.launches_or_not
    (h : x.Underway s room buffer settings events) :
    x.Launches (packetWords (x.packet s room buffer)) events ∨
      ∀ e ∈ events, ¬ e.OfLaunch := by
  cases h with
  | preparing hbefore =>
    exact .inr fun e he => (hbefore e he).not_ofLaunch
  | launched hbefore hfits hafter =>
    exact .inl (launches_launched hbefore hfits hafter.surrounds)

/-- Words are not pushed if there has never been room for them. -/
theorem Exchange.Launches.not_without_room {words : List Word}
    (hwords : words ≠ [])
    (hfull : ∀ e ∈ events, ∀ v, e = .read .npTxStatus v →
      v.freeWords < words.length) :
    ¬ x.Launches words events := by
  rintro ⟨before, size, launch, after, rfl, -, -, -, hfits⟩
  obtain ⟨earlier, v, rfl, hv⟩ := hfits hwords
  have hmem := List.mem_append_right earlier
    (List.mem_singleton_self (Event.read .npTxStatus v))
  have hless := hfull _ (List.mem_append_left _ hmem) v rfl
  exact Nat.not_lt.2 hv hless

end Course

/-! ## A FIFO without room -/

/-- What every answer of the bus satisfies, and whatever is not an answer,
happens all the time. -/
theorem withstands_since {host : Host σ} {E : Event Register → Prop}
    {earlier : List (Event Register)}
    (hread : ∀ r env, E (.read r (host.core.bus.read r env).1))
    (hwrite : ∀ r v, E (.write r v)) (hbarrier : E .barrier)
    (hclock : ∀ t, E (.clock t)) (hpause : ∀ d, E (.pause d)) :
    host.Withstands (World.Since earlier [] E) := by
  have hreads : ∀ r, Preserves (World.Since earlier [] E) (host.core.read r) :=
    fun r w hw => .of_eq (host.core.read_run r · w) (hw.cons (hread _ _) _)
  constructor
  · constructor
    · exact fun w hw => .of_eq (host.core.now_run · w) (hw.cons (hclock _) _)
    · exact fun _ _ _ _ hw => hw.cons (hpause _) _
  · exact fun w hw => .of_eq (host.core.barrier_run · w) (hw.cons hbarrier _)
  · exact fun r _ => hreads r
  · exact fun r v _ w hw =>
      .of_eq (host.core.write_run r v · w) (hw.cons (hwrite _ _) _)
  · exact fun c room => Host.preserves_drain (fun r _ => hreads r) c room

/-- A core that never has room for `n` words tells so whenever it is asked. -/
theorem traces_without_room {host : Host σ} {n : Nat}
    (hfull : ∀ env, (host.core.bus.read .npTxStatus env).1.freeWords < n)
    (s : Link) (x : Exchange) (buffer : List Byte) (length : Nat) :
    (host.transfer s x buffer length).Traces
      (fun events _ => ∀ e ∈ events, ∀ v, e = .read .npTxStatus v →
        v.freeWords < n)
      fun events => ∀ e ∈ events, ∀ v, e = .read .npTxStatus v →
        v.freeWords < n := by
  refine traces_of_preserves fun earlier => ?_
  refine (withstands_since ?_ ?_ ?_ ?_ ?_).transfer s x buffer length
  · intro r env v hv
    injection hv with hr hv
    subst hr hv
    exact hfull env
  all_goals nofun

/-- An exchange writes only to its own channel.  It programs it once and with the
words of its packet, or it has words to send, has waited in vain for room for
them, and ends as an error that has programmed nothing and left its buffer alone.
Where the FIFO never has room for its words, it is not programmed; and with a
clock that moves, an exchange that sends returns. -/
theorem transfer_confined (s : Link) (x : Exchange) (buffer : List Byte)
    (length : Nat) :
    let words := packetWords (x.packet s (min length buffer.length) buffer)
    (∀ {σ : Type} (host : Host σ), (host.transfer s x buffer length).Traces
      (fun events moved => (∀ e ∈ events, x.Confines e) ∧
        (x.Launches words events ∨
          x.Refused host.settings.txFifoTimeout words events ∧
            moved = ⟨.error .error, buffer⟩))
      fun events => (∀ e ∈ events, x.Confines e) ∧
        (x.Launches words events ∨ ∀ e ∈ events, ¬ e.OfLaunch)) ∧
    (words ≠ [] → ∀ {σ : Type} (host : Host σ),
      (∀ env, (host.core.bus.read .npTxStatus env).1.freeWords <
        words.length) →
      (host.transfer s x buffer length).Traces
        (fun events moved => x.Refused host.settings.txFifoTimeout words events ∧
          moved = ⟨.error .error, buffer⟩)
        fun events => ∀ e ∈ events, ¬ e.OfLaunch) ∧
    (x.direction = .toDevice → ∀ {σ : Type} (bus : Bus Register σ) (spin : Bool)
      (w : World Register (σ × TickingClock)), Spare 5 w.env.2 →
      ((Host.ticking bus spin).transfer s x buffer length).Returns w) := by
  intro words
  refine ⟨fun host => ?_, fun hwords _ host hfull => ?_, ?_⟩
  · refine ((traces_transfer host s x buffer length).mono ?_).weaken ?_
    · exact fun events moved h => ⟨h.confined, h.launches_or_refused⟩
    · exact fun events h => ⟨h.confined, h.launches_or_not⟩
  · have hcourse := (traces_transfer host s x buffer length).and
      (traces_without_room hfull s x buffer length)
    refine (hcourse.mono ?_).weaken ?_
    · exact fun events moved ⟨h, hshort⟩ => h.launches_or_refused.resolve_left
        (Exchange.Launches.not_without_room hwords hshort)
    · exact fun events ⟨h, hshort⟩ => h.launches_or_not.resolve_left
        (Exchange.Launches.not_without_room hwords hshort)
  · intro hsends σ bus spin w hw
    have hnever : ∀ e, x.Stalls e → False := by
      intro e he
      rw [Exchange.Stalls, hsends] at he
      exact nomatch he.1
    obtain ⟨moved, w', enough, hrun, -⟩ :=
      ((takes_transfer s x buffer length 0 w hw).weaken hnever).exists_run
    exact ⟨enough, moved, w', hrun enough (Nat.le_refl enough)⟩

/-- Frames start and packets go out at once; the transmit FIFO always has room
for `free` words. -/
def promptBus (free : Word) : Bus Register Unit where
  read r b :=
    match r with
    | .npTxStatus => (free, b)
    | .interruptStatus => (CoreInterrupts.startOfFrame.bits, b)
    | .channel _ .interrupts => (ChannelInterrupts.transferComplete.bits, b)
    | _ => (0, b)
  write _ _ b := b

/-- A setup packet takes two words.  Where there is room for two it is launched
and sent, and where there is room for one it is refused. -/
theorem setup_sent_if_room :
    let setup : List Byte := [0x80, 6, 0, 1, 0, 0, 18, 0]
    let words : List Word := [0x01000680, 0x00120000]
    let x := Exchange.control .toDevice .setup
    let w : World Register (Unit × TickingClock) := ⟨((), {}), []⟩
    (∃ w' events,
      (Host.ticking (promptBus 2) false).transfer {} x setup 8 2 w =
        .ok ⟨.ok 8, setup⟩ w' ∧
      w.Through events w' ∧ (∀ e ∈ events, x.Confines e) ∧
      x.Launches words events) ∧
    ∃ patience w' events,
      (Host.ticking (promptBus 1) false).transfer {} x setup 8 patience w =
        .ok ⟨.error .error, setup⟩ w' ∧
      w.Through events w' ∧
      x.Refused (Host.ticking (promptBus 1) false).settings.txFifoTimeout words
        events := by
  intro setup words x w
  have hwords : packetWords (x.packet {} (min 8 setup.length) setup) = words :=
    by decide
  obtain ⟨hcourses, hnoroom, hreturns⟩ := transfer_confined {} x setup 8
  rw [hwords] at hcourses hnoroom
  constructor
  · have hsent : ((Host.ticking (promptBus 2) false).transfer {} x setup
        8).returns 2 w (fun moved _ =>
          decide (moved.result = .ok 8 ∧ moved.buffer = setup)) = true := by
      decide +kernel
    obtain ⟨⟨result, buffer⟩, w', hrun, hmoved⟩ := exists_of_returns hsent
    obtain ⟨rfl, rfl⟩ : result = .ok 8 ∧ buffer = setup :=
      of_decide_eq_true hmoved
    obtain ⟨events, hevents, hconfined, hcourse⟩ :=
      (hcourses (Host.ticking (promptBus 2) false)).of_run hrun
    obtain hlaunches | ⟨-, hfailed⟩ := hcourse
    · exact ⟨w', events, hrun, hevents, hconfined, hlaunches⟩
    · exact nomatch congrArg Moved.result hfailed
  · have hfull : (1 : Word).freeWords < words.length := by decide
    have hspare : Spare 5 w.env.2 := ⟨by decide, by decide⟩
    obtain ⟨patience, moved, w', hrun⟩ :=
      hreturns rfl (promptBus 1) false w hspare
    have hcourse := hnoroom (List.cons_ne_nil _ _)
      (Host.ticking (promptBus 1) false) fun _ => hfull
    obtain ⟨events, hevents, hrefused, rfl⟩ := hcourse.of_run hrun
    exact ⟨patience, w', events, hrun, hevents, hrefused⟩

end UsbHost
