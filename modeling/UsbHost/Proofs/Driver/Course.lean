import Mathlib.Data.List.Basic
import UsbHost.Proofs.Driver.Programming
import UsbHost.Proofs.Machine.Traces

/-!
# The course of an exchange

What an exchange does on bus and clock, from beginning to end: it prepares its
channel, launches its packet, watches the channel until an event tells how the
exchange has ended, and closes the channel again.  The course is a language of
events, stated without reference to any hardware; on every hardware the events
of an exchange are a word of it or, if the exchange does not return, the
beginning of one.

## Main results

* `ending?_decode` — the bits by which a channel tells how an exchange ended.
* `Exchange.Concludes` — the end of an exchange, event by event.
* `Exchange.Course`, `Exchange.Underway` — whole exchanges, and those that have
  not come to their end.
* `traces_transfer` — what an exchange does on any hardware.
-/

namespace UsbHost

open Run

variable {σ : Type} {host : Host σ}

/-! ## Flags bit by bit -/

namespace FlagSet

variable {n : Nat} {known : BitVec n}

theorem bits_truncate_twoPow {k : Nat} (hk : known.getLsbD k = true) :
    (truncate (BitVec.twoPow n k) : FlagSet known).bits =
      BitVec.twoPow n k := by
  rw [bits_truncate, BitVec.and_comm, BitVec.and_twoPow, if_pos hk]

theorem bits_and_twoPow (v : BitVec n) {k : Nat}
    (hk : known.getLsbD k = true) :
    (truncate v : FlagSet known).bits &&& BitVec.twoPow n k =
      if v.getLsbD k then BitVec.twoPow n k else 0 := by
  rw [bits_truncate, BitVec.and_twoPow, BitVec.getLsbD_and, hk, Bool.and_true]
  rfl

theorem twoPow_ne_zero {k : Nat} (hk : known.getLsbD k = true) :
    BitVec.twoPow n k ≠ 0 := by
  intro h
  have hlt : k < n := BitVec.lt_of_getLsbD hk
  have := congrArg (·.getLsbD k) h
  simp [hlt] at this

theorem contains_twoPow (v : BitVec n) {k : Nat} (hk : known.getLsbD k = true) :
    (truncate v : FlagSet known).contains (truncate (BitVec.twoPow n k)) =
      v.getLsbD k := by
  have h0 := twoPow_ne_zero hk
  rw [contains, bits_truncate_twoPow hk, bits_and_twoPow v hk]
  cases v.getLsbD k with
  | true => simp
  | false => simpa using h0.symm

theorem intersects_twoPow (v : BitVec n) {k : Nat}
    (hk : known.getLsbD k = true) :
    (truncate v : FlagSet known).intersects (truncate (BitVec.twoPow n k)) =
      v.getLsbD k := by
  have h0 := twoPow_ne_zero hk
  rw [intersects, bits_truncate_twoPow hk, bits_and_twoPow v hk]
  cases v.getLsbD k with
  | true => simpa using h0
  | false => simp

theorem intersects_union (s t u : FlagSet known) :
    s.intersects (t.union u) = (s.intersects t || s.intersects u) := by
  have hor : s.bits &&& t.bits ||| s.bits &&& u.bits = 0 ↔
      s.bits &&& t.bits = 0 ∧ s.bits &&& u.bits = 0 := BitVec.or_eq_zero_iff
  rw [intersects, bits_union, BitVec.and_or_distrib_left, Bool.eq_iff_iff,
    bne_iff_ne, ne_eq, hor, Decidable.not_and_iff_not_or_not, Bool.or_eq_true,
    intersects, intersects, bne_iff_ne, bne_iff_ne]

end FlagSet

/-- How the interrupts of a channel, bit by bit, say that an exchange has ended:
completion (bit 0) before NAK (bit 4), NAK before STALL (bit 3), and all of them
before the errors (bits 2, 7 and 8) and a bare halt (bit 1). -/
def Word.ending? (v : Word) : Option (Except TransferError Unit) :=
  if v.getLsbD 0 then some (.ok ())
  else if v.getLsbD 4 then some (.error .nak)
  else if v.getLsbD 3 then some (.error .stall)
  else if v.getLsbD 2 || v.getLsbD 7 || v.getLsbD 8 || v.getLsbD 1 then
    some (.error .error)
  else none

theorem ending?_decode (c : Channel) (v : Word) :
    ((Register.channel c .interrupts).decode v).ending? = v.ending? := by
  have hflag : ∀ k, (0x7FF : Word).getLsbD k = true →
      ((Register.channel c .interrupts).decode v).contains
        (.truncate (BitVec.twoPow 32 k)) = v.getLsbD k :=
    fun k hk => FlagSet.contains_twoPow v hk
  have hmeets : ∀ k, (0x7FF : Word).getLsbD k = true →
      ((Register.channel c .interrupts).decode v).intersects
        (.truncate (BitVec.twoPow 32 k)) = v.getLsbD k :=
    fun k hk => FlagSet.intersects_twoPow v hk
  have herrors : ((Register.channel c .interrupts).decode v).intersects
      ChannelInterrupts.errors =
      (v.getLsbD 2 || (v.getLsbD 3 || (v.getLsbD 7 || v.getLsbD 8))) := by
    rw [← hmeets 2 rfl, ← hmeets 3 rfl, ← hmeets 7 rfl, ← hmeets 8 rfl,
      ← FlagSet.intersects_union, ← FlagSet.intersects_union,
      ← FlagSet.intersects_union]
    rfl
  have hends : ((Register.channel c .interrupts).decode v).ending? =
      if v.getLsbD 0 then some (.ok ())
      else if v.getLsbD 4 then some (.error .nak)
      else if v.getLsbD 3 then some (.error .stall)
      else if v.getLsbD 2 || (v.getLsbD 3 || (v.getLsbD 7 || v.getLsbD 8)) then
        some (.error .error)
      else if v.getLsbD 1 then some (.error .error)
      else none := by
    rw [← hflag 0 rfl, ← hflag 4 rfl, ← hflag 1 rfl, ← herrors, ← hflag 3 rfl]
    rfl
  -- A STALL is among the errors too, but by then it has been told.
  rw [hends, Word.ending?]
  cases v.getLsbD 3 <;> cases v.getLsbD 1 <;> simp [or_assoc]

/-! ## Events -/

/-- The event changes nothing. -/
def Event.Looks : Event Register → Prop
  | .read _ _ | .clock _ => True
  | _ => False

/-- What an exchange does around the programming of its channel. -/
def Exchange.Surrounds (x : Exchange) : Event Register → Prop
  | .read _ _ | .clock _ => True
  | .write (.channel c .characteristics) v =>
    c = x.channel ∧ ChannelCharacteristics.disable.get ⟨v⟩ = true
  | .write (.channel c .splitControl) v => c = x.channel ∧ v = 0
  | .write (.channel c .interrupts) v =>
    c = x.channel ∧ v = BitVec.allOnes 32
  | .write .interruptStatus v =>
    v = CoreInterrupts.startOfFrame.bits ∧ x.type = .control
  | _ => False

theorem Event.Looks.surrounds {e : Event Register} (h : e.Looks)
    (x : Exchange) : x.Surrounds e := by
  cases e with
  | read r v => trivial
  | clock t => trivial
  | _ => exact h.elim

theorem Event.Misses.looks {r : Register} {shows : Word → Bool}
    {e : Event Register} (h : e.Misses r shows) : e.Looks := by
  cases e with
  | read r v => trivial
  | clock t => trivial
  | _ => exact h.elim

theorem Waited.looks {r : Register} {shows : Word → Bool}
    {events : List (Event Register)} {met : Bool}
    (h : Waited r shows events met) : ∀ e ∈ events, e.Looks := by
  obtain ⟨before, v, rfl, hbefore, -⟩ := h
  refine List.forall_mem_append.2 ⟨fun e he => (hbefore e he).looks, ?_⟩
  exact List.forall_mem_singleton.2 trivial

/-! ## Accesses -/

theorem traces_load (r : Register) :
    (host.core.load r).Traces
      (fun events content => ∃ v, events = [.read r v] ∧ content = r.decode v)
      fun _ => False := by
  refine (host.core.traces_read r).after ?_
  rintro _ v rfl
  exact .pure ⟨v, rfl, rfl⟩

/-- Waiting until a register says something. -/
theorem traces_waitFor (timeout : Duration) (r : Register)
    (tells : r.Content → Bool) {shows : Word → Bool}
    (h : ∀ v, tells (r.decode v) = shows v) :
    (host.core.waitUntil timeout
      (do return tells (← host.core.load r))).Traces
      (fun events met => Waited r shows events met ∧
        (met = false → GivenUp timeout r shows events))
      fun events => ∀ e ∈ events, e.Misses r shows := by
  refine host.core.traces_waitUntil timeout ((traces_load r).after ?_)
  rintro _ _ ⟨v, rfl, rfl⟩
  exact .pure ⟨v, rfl, h v⟩

theorem traces_store (r : Register) (content : r.Content) :
    (host.core.store r content).Traces
      (fun events _ => events = [.write r (r.encode content)])
      fun _ => False :=
  host.core.traces_write r (r.encode content)

theorem traces_storeOnes (r : Register) :
    (host.core.storeOnes r).Traces
      (fun events _ => events = [.write r (BitVec.allOnes 32)])
      fun _ => False :=
  host.core.traces_write r (BitVec.allOnes 32)

/-- What every access of a program satisfies, every event of its runs does. -/
theorem traces_of_preserves {α : Type} {p : Run Register σ α}
    {E : Event Register → Prop}
    (hp : ∀ earlier, Preserves (World.Since earlier [] E) p) :
    p.Traces (fun events _ => ∀ e ∈ events, E e)
      fun events => ∀ e ∈ events, E e := by
  have hevents : ∀ w w' : World Register σ, World.Since w.log [] E w' →
      ∃ events, w.Through events w' ∧ ∀ e ∈ events, E e := by
    rintro w w' ⟨events, hlog, -, hall⟩
    refine ⟨events.reverse, ?_, fun e he => hall e (List.mem_reverse.1 he)⟩
    rw [World.Through, List.reverse_reverse, hlog]
  intro w
  refine ((hp w.log w (.refl w E)).mono ?_).weaken ?_
  · exact fun _ w' hw => hevents w w' hw
  · exact fun w' hw => hevents w w' hw

/-- Draining the receive FIFO only looks. -/
theorem traces_drain (c : Channel) (room : Nat) :
    (host.drain c room).Traces (fun events _ => ∀ e ∈ events, e.Looks)
      fun events => ∀ e ∈ events, e.Looks := by
  refine traces_of_preserves fun earlier =>
    Host.preserves_drain (fun r _ w hw => ?_) c room
  exact .of_eq (host.core.read_run r · w) (hw.cons (by trivial) _)

/-! ## Bringing a channel to rest -/

/-- The register tells that the channel has halted. -/
def Word.halted (v : Word) : Bool := v.getLsbD 1

/-- The events of a channel being brought to rest: one that is found enabled is
disabled first, and watched until it has halted or has had the time for it. -/
inductive Quieted (c : Channel) : List (Event Register) → Prop
  | resting {v : Word}
    (hv : ChannelCharacteristics.enable.get ⟨v⟩ = false) :
    Quieted c [.read (.channel c .characteristics) v,
      .write (.channel c .interrupts) (BitVec.allOnes 32)]
  | halted {v : Word} {events : List (Event Register)} {met : Bool}
    (hv : ChannelCharacteristics.enable.get ⟨v⟩ = true)
    (hwait : Waited (.channel c .interrupts) Word.halted events met) :
    Quieted c (.read (.channel c .characteristics) v ::
      .write (.channel c .characteristics)
        (ChannelCharacteristics.disable.set true ⟨v⟩).raw ::
      (events ++ [.write (.channel c .interrupts) (BitVec.allOnes 32)]))

/-- The events of a channel that has been disabled and has not halted yet. -/
inductive Quieting (c : Channel) : List (Event Register) → Prop
  | halting {v : Word} {events : List (Event Register)}
    (hv : ChannelCharacteristics.enable.get ⟨v⟩ = true)
    (hwait : ∀ e ∈ events,
      e.Misses (.channel c .interrupts) Word.halted) :
    Quieting c (.read (.channel c .characteristics) v ::
      .write (.channel c .characteristics)
        (ChannelCharacteristics.disable.set true ⟨v⟩).raw :: events)

theorem halted_decode (c : Channel) (v : Word) :
    ((Register.channel c .interrupts).decode v).contains
      ChannelInterrupts.halted = v.halted :=
  FlagSet.contains_twoPow v rfl

theorem traces_quiesce (c : Channel) :
    (host.quiesce c).Traces (fun events _ => Quieted c events)
      (Quieting c) := by
  have hclear := @traces_storeOnes σ host (.channel c .interrupts)
  have hwait := @traces_waitFor σ host
    host.settings.channelHaltTimeout (.channel c .interrupts)
    (·.contains ChannelInterrupts.halted) _ (halted_decode c)
  unfold Host.quiesce
  refine (traces_load _).after ?_
  rintro _ _ ⟨v, rfl, rfl⟩
  dsimp only
  split
  next hv =>
    refine (traces_store _ _).after ?_
    rintro _ _ rfl
    refine hwait.bind (fun _ h => .halting hv h) fun events met h => ?_
    refine (hclear.weaken fun _ h => h.elim).mono ?_
    rintro _ _ rfl
    exact .halted hv h.1
  next hv =>
    refine (hclear.weaken fun _ h => h.elim).mono ?_
    rintro _ _ rfl
    exact .resting (Bool.eq_false_iff.2 hv)

section Surrounds

variable {x : Exchange} {events : List (Event Register)}

theorem surrounds_of_looks (h : ∀ e ∈ events, e.Looks) :
    ∀ e ∈ events, x.Surrounds e :=
  fun e he => (h e he).surrounds x

theorem surrounds_clear :
    x.Surrounds (.write (.channel x.channel .interrupts)
      (BitVec.allOnes 32)) :=
  ⟨rfl, rfl⟩

theorem surrounds_halt (chars : ChannelCharacteristics) :
    x.Surrounds (.write (.channel x.channel .characteristics)
      (ChannelCharacteristics.disable.set true chars).raw) :=
  ⟨rfl, BitField.get_set _ true chars⟩

/-- Bringing its channel to rest is done around an exchange. -/
theorem Quieted.surrounds (h : Quieted x.channel events) :
    ∀ e ∈ events, x.Surrounds e := by
  cases h with
  | resting hv =>
    exact List.forall_mem_cons.2 ⟨trivial,
      List.forall_mem_singleton.2 surrounds_clear⟩
  | halted hv hwait =>
    refine List.forall_mem_cons.2 ⟨trivial, List.forall_mem_cons.2 ⟨?_, ?_⟩⟩
    · exact surrounds_halt _
    · exact List.forall_mem_append.2 ⟨surrounds_of_looks hwait.looks,
        List.forall_mem_singleton.2 surrounds_clear⟩

theorem Quieting.surrounds (h : Quieting x.channel events) :
    ∀ e ∈ events, x.Surrounds e := by
  obtain ⟨hv, hwait⟩ := h
  refine List.forall_mem_cons.2 ⟨trivial, List.forall_mem_cons.2 ⟨?_, ?_⟩⟩
  · exact surrounds_halt _
  · exact surrounds_of_looks fun e he => (hwait e he).looks

/-- A channel at rest has had its interrupts acknowledged last. -/
theorem Quieted.cleared {c : Channel} (h : Quieted c events) :
    ∃ before, events =
      before ++ [.write (.channel c .interrupts) (BitVec.allOnes 32)] := by
  cases h with
  | resting hv => exact ⟨[_], rfl⟩
  | halted hv hwait => exact ⟨_ :: _ :: _, rfl⟩

end Surrounds

/-! ## Preparing an exchange -/

/-- A control packet waits for a start of frame. -/
theorem traces_awaitFrame {x : Exchange} (hx : x.type = .control) :
    host.awaitFrame.Traces (fun events _ => ∀ e ∈ events, x.Surrounds e)
      fun events => ∀ e ∈ events, x.Surrounds e := by
  have hframe : ∀ e ∈ [Event.write .interruptStatus
      (Register.interruptStatus.encode CoreInterrupts.startOfFrame)],
      x.Surrounds e :=
    List.forall_mem_singleton.2 ⟨rfl, hx⟩
  unfold Host.awaitFrame
  refine (traces_store _ _).after ?_
  rintro _ _ rfl
  refine (traces_waitFor _ .interruptStatus
    (·.contains CoreInterrupts.startOfFrame) fun _ => rfl).bind ?_ ?_
  · intro events hwait
    have hlooks := surrounds_of_looks (x := x) fun e he => (hwait e he).looks
    exact List.forall_mem_append.2 ⟨hframe, hlooks⟩
  · rintro events met ⟨hwait, -⟩
    have hlooks := surrounds_of_looks (x := x) hwait.looks
    refine ((traces_store _ _).weaken fun _ h => h.elim).mono ?_
    rintro _ _ rfl
    exact List.forall_mem_append.2
      ⟨hframe, List.forall_mem_append.2 ⟨hlooks, hframe⟩⟩

/-- Free words of the transmit FIFO, as its status tells. -/
def Word.freeWords (v : Word) : Nat :=
  (NpTxStatus.spaceAvailable.get ⟨v⟩).toNat

theorem traces_awaitTxSpace (words : Nat) :
    (host.awaitTxSpace words).Traces
      (fun events fits =>
        Waited .npTxStatus (fun v => words ≤ v.freeWords) events fits ∧
        (fits = false → GivenUp host.settings.txFifoTimeout .npTxStatus
          (fun v => words ≤ v.freeWords) events))
      fun events =>
        ∀ e ∈ events, e.Misses .npTxStatus fun v => words ≤ v.freeWords :=
  traces_waitFor _ .npTxStatus
    (fun status => words ≤ (NpTxStatus.spaceAvailable.get status).toNat)
    fun _ => rfl

namespace Exchange

variable (x : Exchange) (s : Link) (room : Nat) (buffer : List Byte)

/-- The bytes that an exchange sends: as much of the buffer as is offered and
fits into one packet. -/
def packet : List Byte :=
  match x.direction with
  | .toHost => []
  | .toDevice => buffer.take (min room (s.packetSizeOf x.endpoint).toNat)

/-- What follows the enabling of the channel in a launch. -/
def pushing : List (Event Register) :=
  .barrier :: (packetWords (x.packet s room buffer)).map
    (.write (.fifo x.channel))

/-- The events of a launch. -/
def launching (oddFrame : Bool) : List (Event Register) :=
  .write (.channel x.channel .transferSize) (x.sizeWord s room) ::
  .barrier ::
  .write (.channel x.channel .characteristics) (x.enableWord s oddFrame) ::
  x.pushing s room buffer

end Exchange

theorem Exchange.packet_of_receives {s : Link} {x : Exchange} {room : Nat}
    {buffer : List Byte} (hx : x.direction = .toHost) :
    x.packet s room buffer = [] := by
  rw [Exchange.packet, hx]

theorem Exchange.packet_of_sends {s : Link} {x : Exchange} {room : Nat}
    {buffer : List Byte} (hx : x.direction = .toDevice) :
    x.packet s room buffer = buffer.take (x.requested s room) := by
  rw [Exchange.packet, Exchange.requested, hx]

theorem traces_launch {s : Link} {x : Exchange} {room : Nat}
    {buffer : List Byte} (hroom : room ≤ buffer.length) (oddFrame : Bool) :
    (host.launch x (x.characteristics s oddFrame) (x.requested s room)
        buffer).Traces
      (fun events _ => events = x.launching s room buffer oddFrame)
      fun _ => False := by
  unfold Host.launch
  rw [narrow_eq (x.toNat_requested s room), pure_bind]
  refine (traces_store _ _).after ?_
  rintro _ _ rfl
  refine host.core.traces_barrier.after ?_
  rintro _ _ rfl
  refine (traces_store _ _).after ?_
  rintro _ _ rfl
  refine host.core.traces_barrier.after ?_
  rintro _ _ rfl
  unfold Exchange.launching Exchange.pushing
  cases hx : x.direction with
  | toHost =>
    rw [Exchange.packet_of_receives hx]
    exact .pure rfl
  | toDevice =>
    have hrequested := Nat.le_trans (x.requested_le s hx) hroom
    rw [Exchange.packet_of_sends hx, if_pos rfl,
      slice_eq (Nat.zero_le _) hrequested, pure_bind]
    refine (host.core.traces_writes (.fifo x.channel) _).mono ?_
    rintro _ _ rfl
    rfl

/-! ## Watching the channel -/

/-- The event was seen while a channel was watched until a deadline, and does
not tell how the exchange ended. -/
def Event.Undecided (c : Channel) (d : Deadline) : Event Register → Prop
  | .read r v => r = .channel c .interrupts ∧ v.ending? = none
  | .clock t => d.reached t = false
  | _ => False

namespace Exchange

variable (x : Exchange) (d : Deadline)

/-- How an exchange ends after its launch.  Up to the event that tells how it
ended, nothing has told that; after it, a packet that has been received is taken
off the FIFO, and the channel is closed. -/
inductive Concludes : List (Event Register) → Except TransferError Unit → Prop
  | received {watched taken : List (Event Register)} {v : Word}
    (hx : x.direction = .toHost)
    (hwatched : ∀ e ∈ watched, e.Undecided x.channel d)
    (hv : v.ending? = some (.ok ())) (htaken : ∀ e ∈ taken, e.Looks) :
    Concludes (watched ++ .read (.channel x.channel .interrupts) v ::
      (taken ++ [.write (.channel x.channel .interrupts)
        (BitVec.allOnes 32)])) (.ok ())
  | told {watched : List (Event Register)} {v : Word}
    {ending : Except TransferError Unit}
    (hwatched : ∀ e ∈ watched, e.Undecided x.channel d)
    (hv : v.ending? = some ending) :
    Concludes (watched ++ [.read (.channel x.channel .interrupts) v,
      .write (.channel x.channel .interrupts) (BitVec.allOnes 32)]) ending
  | expired {watched closing : List (Event Register)} {t : Duration}
    (hwatched : ∀ e ∈ watched, e.Undecided x.channel d)
    (ht : d.reached t = true) (hclosing : Quieted x.channel closing) :
    Concludes (watched ++ .clock t :: closing) (.error .timeout)

/-- What has happened since the launch of an exchange that has not ended:
nothing that tells how it ended, or it still takes a packet off the FIFO, or
halts its channel after the deadline. -/
inductive Lingers : List (Event Register) → Prop
  | watching {watched : List (Event Register)}
    (hwatched : ∀ e ∈ watched, e.Undecided x.channel d) : Lingers watched
  | receiving {watched taken : List (Event Register)} {v : Word}
    (hx : x.direction = .toHost)
    (hwatched : ∀ e ∈ watched, e.Undecided x.channel d)
    (hv : v.ending? = some (.ok ())) (htaken : ∀ e ∈ taken, e.Looks) :
    Lingers (watched ++ .read (.channel x.channel .interrupts) v :: taken)
  | expired {watched closing : List (Event Register)} {t : Duration}
    (hwatched : ∀ e ∈ watched, e.Undecided x.channel d)
    (ht : d.reached t = true) (hclosing : Quieting x.channel closing) :
    Lingers (watched ++ .clock t :: closing)

end Exchange

theorem traces_await {x : Exchange} {requested room : Nat}
    {buffer : List Byte} :
    (host.await x requested buffer room).Traces
      (fun events moved => ∃ start after, events = .clock start :: after ∧
        x.Concludes (.ofStart start host.settings.transferTimeout) after
          (moved.result.map fun _ => ()))
      fun events => ∃ start after, events = .clock start :: after ∧
        x.Lingers (.ofStart start host.settings.transferTimeout) after := by
  have hclear := @traces_storeOnes σ host (.channel x.channel .interrupts)
  unfold Host.await
  refine (host.core.traces_deadlineAfter _).after ?_
  rintro _ d ⟨start, rfl, hd⟩
  suffices h : (Run.loop _ ()).Traces
      (fun events (moved : Moved TransferError) =>
        x.Concludes d events (moved.result.map fun _ => ())) (x.Lingers d) from
    (h.mono fun events moved h => ⟨start, events, rfl, hd ▸ h⟩).weaken
      fun events h => ⟨start, events, rfl, hd ▸ h⟩
  refine .loop (fun seen _ => ∀ e ∈ seen, e.Undecided x.channel d)
    (fun _ _ h => .watching h) (fun seen _ hseen => ?_) nofun
  refine (traces_load _).after ?_
  rintro _ _ ⟨v, rfl, rfl⟩
  rw [ending?_decode]
  cases hv : v.ending? with
  | some ending =>
    cases ending with
    | ok _ =>
      dsimp only
      cases hx : x.direction with
      | toHost =>
        refine (traces_drain _ _).bind (fun taken htaken => ?_)
          fun taken received htaken => ?_
        · exact .receiving hx hseen hv htaken
        · refine hclear.after ?_
          rintro _ _ rfl
          exact .pure (.received hx hseen hv htaken)
      | toDevice =>
        refine hclear.after ?_
        rintro _ _ rfl
        exact .pure (.told hseen hv)
    | error e =>
      refine hclear.after ?_
      rintro _ _ rfl
      exact .pure (.told hseen hv)
  | none =>
    have hlooked : ∀ e ∈ seen ++ [.read (.channel x.channel .interrupts) v],
        e.Undecided x.channel d :=
      List.forall_mem_append.2 ⟨hseen, List.forall_mem_singleton.2 ⟨rfl, hv⟩⟩
    refine (host.core.traces_expired d).after fun events late h => ?_
    rcases h with ⟨rfl, rfl⟩ | ⟨t, rfl, rfl⟩
    · exact .pure hlooked
    · cases ht : d.reached t with
      | false =>
        refine .pure ?_
        show ∀ e ∈ seen ++ ([_] ++ [Event.clock t]), e.Undecided x.channel d
        rw [← List.append_assoc]
        exact List.forall_mem_append.2 ⟨hlooked, List.forall_mem_singleton.2 ht⟩
      | true =>
        refine (traces_quiesce _).bind (fun closing h => ?_)
          fun closing _ h => .pure ?_
        · have hlingers := Exchange.Lingers.expired hlooked ht h
          rwa [List.append_assoc] at hlingers
        · have hconcludes := Exchange.Concludes.expired hlooked ht h
          rwa [List.append_assoc, ← List.append_nil closing] at hconcludes

/-! ## The whole exchange -/

namespace Exchange

variable (x : Exchange) (s : Link) (room : Nat) (buffer : List Byte)
  (settings : Settings)

/-- If there is anything to send, the transmit FIFO has just been seen to have
room for it. -/
def Fits (before : List (Event Register)) : Prop :=
  let words := packetWords (x.packet s room buffer)
  words ≠ [] → ∃ earlier v, before = earlier ++ [.read .npTxStatus v] ∧
    words.length ≤ v.freeWords

/-- The exchange has words to send and has waited for room for them in the
transmit FIFO in vain. -/
def Crowded (waited : List (Event Register)) : Prop :=
  let words := packetWords (x.packet s room buffer)
  words ≠ [] ∧ GivenUp settings.txFifoTimeout .npTxStatus
    (fun v => words.length ≤ v.freeWords) waited

/-- The events of an exchange, and what it came to.  One that sends is refused
if its packet does not fit into the transmit FIFO. -/
inductive Course : List (Event Register) → Moved TransferError → Prop
  | refused {before waited : List (Event Register)}
    (hbefore : ∀ e ∈ before, x.Surrounds e)
    (hcrowded : x.Crowded s room buffer settings waited) :
    Course (before ++ waited) ⟨.error .error, buffer⟩
  | launched {before after : List (Event Register)} {oddFrame : Bool}
    {start : Duration} {moved : Moved TransferError}
    (hbefore : ∀ e ∈ before, x.Surrounds e)
    (hfits : x.Fits s room buffer before)
    (hafter : x.Concludes (.ofStart start settings.transferTimeout) after
      (moved.result.map fun _ => ())) :
    Course (before ++ (x.launching s room buffer oddFrame ++
      .clock start :: after)) moved

/-- The events of an exchange that has not come to its end. -/
inductive Underway : List (Event Register) → Prop
  | preparing {before : List (Event Register)}
    (hbefore : ∀ e ∈ before, x.Surrounds e) : Underway before
  | launched {before after : List (Event Register)} {oddFrame : Bool}
    {start : Duration} (hbefore : ∀ e ∈ before, x.Surrounds e)
    (hfits : x.Fits s room buffer before)
    (hafter : x.Lingers (.ofStart start settings.transferTimeout) after) :
    Underway (before ++ (x.launching s room buffer oddFrame ++
      .clock start :: after))

end Exchange

section Transfer

variable {s : Link} {x : Exchange} {room : Nat} {buffer : List Byte}
  {settings : Settings} {before events : List (Event Register)}

/-- Waiting for room only looks, so a refusal is nothing but what is done around
an exchange. -/
theorem Exchange.Crowded.surrounds
    (h : x.Crowded s room buffer settings events)
    (hbefore : ∀ e ∈ before, x.Surrounds e) :
    ∀ e ∈ before ++ events, x.Surrounds e :=
  List.forall_mem_append.2
    ⟨hbefore, surrounds_of_looks fun e he => (h.2.misses e he).looks⟩

theorem Exchange.Fits.prepend (h : x.Fits s room buffer events) :
    x.Fits s room buffer (before ++ events) := by
  intro hwords
  obtain ⟨earlier, v, rfl, hv⟩ := h hwords
  exact ⟨before ++ earlier, v, (List.append_assoc _ _ _).symm, hv⟩

/-- More may be done around an exchange before it. -/
theorem Exchange.Course.prepend {moved : Moved TransferError}
    (hbefore : ∀ e ∈ before, x.Surrounds e)
    (h : x.Course s room buffer settings events moved) :
    x.Course s room buffer settings (before ++ events) moved := by
  cases h with
  | refused hevents hcrowded =>
    rw [← List.append_assoc]
    exact .refused (List.forall_mem_append.2 ⟨hbefore, hevents⟩) hcrowded
  | launched hevents hfits hafter =>
    rw [← List.append_assoc]
    exact .launched (List.forall_mem_append.2 ⟨hbefore, hevents⟩)
      hfits.prepend hafter

theorem Exchange.Underway.prepend (hbefore : ∀ e ∈ before, x.Surrounds e)
    (h : x.Underway s room buffer settings events) :
    x.Underway s room buffer settings (before ++ events) := by
  cases h with
  | preparing hevents =>
    exact .preparing (List.forall_mem_append.2 ⟨hbefore, hevents⟩)
  | launched hevents hfits hafter =>
    rw [← List.append_assoc]
    exact .launched (List.forall_mem_append.2 ⟨hbefore, hevents⟩)
      hfits.prepend hafter

/-- An exchange after something that is done around it. -/
theorem traces_prepared {α : Type} {p : Run Register σ α}
    {f : α → Run Register σ (Moved TransferError)}
    (hp : p.Traces (fun events _ => ∀ e ∈ events, x.Surrounds e)
      fun events => ∀ e ∈ events, x.Surrounds e)
    (hf : ∀ a, (f a).Traces (x.Course s room buffer settings)
      (x.Underway s room buffer settings)) :
    (p >>= f).Traces (x.Course s room buffer settings)
      (x.Underway s room buffer settings) :=
  hp.bind (fun _ h => .preparing h) fun _ a h =>
    ((hf a).mono fun _ _ hc => hc.prepend h).weaken fun _ hu => hu.prepend h

/-- What is launched is watched to its end. -/
theorem traces_attempt (hroom : room ≤ buffer.length) (frame : Half)
    (hbefore : ∀ e ∈ before, x.Surrounds e)
    (hfits : x.Fits s room buffer before) :
    (host.attempt s x buffer room frame true).Traces
      (fun events moved => x.Course s room buffer host.settings
        (before ++ events) moved)
      fun events => x.Underway s room buffer host.settings
        (before ++ events) := by
  refine (traces_launch hroom _).after ?_
  rintro _ _ rfl
  refine (traces_await.mono ?_).weaken ?_
  · rintro _ moved ⟨start, after, rfl, hafter⟩
    exact .launched hbefore hfits hafter
  · rintro _ ⟨start, after, rfl, hafter⟩
    exact .launched hbefore hfits hafter

/-- What is to be sent has as many words as the transmit FIFO is asked to have
room for. -/
theorem Exchange.length_words (hroom : room ≤ buffer.length)
    (hx : x.direction = .toDevice) :
    (packetWords (x.packet s room buffer)).length =
      wordCount (x.requested s room) := by
  have hrequested := Nat.le_trans (x.requested_le s hx) hroom
  rw [packet_of_sends hx, length_packetWords, List.length_take,
    Nat.min_eq_left hrequested]

/-- Nothing to send fits into any FIFO. -/
theorem Exchange.fits_of_not_sends
    (h : ¬(x.direction = .toDevice ∧ 0 < x.requested s room)) :
    x.Fits s room buffer [] := by
  refine fun hwords => (hwords ?_).elim
  cases hx : x.direction with
  | toHost =>
    rw [packet_of_receives hx]
    rfl
  | toDevice =>
    have hzero : x.requested s room = 0 :=
      Nat.eq_zero_of_not_pos fun hsends => h ⟨hx, hsends⟩
    rw [packet_of_sends hx, hzero]
    rfl

/-- An exchange on a channel at rest. -/
theorem traces_offer (hroom : room ≤ buffer.length) :
    (host.offer s x buffer room).Traces
      (x.Course s room buffer host.settings)
      (x.Underway s room buffer host.settings) := by
  have hsingle : ∀ {e : Event Register}, x.Surrounds e →
      ∀ e' ∈ [e], x.Surrounds e' := fun h => List.forall_mem_singleton.2 h
  refine traces_prepared ?_ fun _ => traces_prepared ?_ fun frame =>
    traces_prepared ?_ fun _ => ?_
  · refine ((traces_store _ _).weaken fun _ h => h.elim).mono ?_
    rintro _ _ rfl
    exact hsingle ⟨rfl, rfl⟩
  · refine ((traces_load _).weaken fun _ h => h.elim).mono ?_
    rintro _ _ ⟨v, rfl, rfl⟩
    exact hsingle trivial
  · refine ((traces_storeOnes _).weaken fun _ h => h.elim).mono ?_
    rintro _ _ rfl
    exact hsingle surrounds_clear
  dsimp only
  split
  next hsends =>
    have hlength := Exchange.length_words (s := s) hroom hsends.1
    refine (traces_awaitTxSpace _).bind ?_ ?_
    · exact fun events hwait => .preparing
        (surrounds_of_looks fun e he => (hwait e he).looks)
    rintro events fits ⟨hwait, hgivenUp⟩
    rw [← hlength] at hwait hgivenUp
    cases fits with
    | false =>
      have hwords : packetWords (x.packet s room buffer) ≠ [] := by
        have hpositive := hsends.2
        rw [← List.length_pos_iff, hlength, wordCount]
        omega
      have hcourse := Exchange.Course.refused (List.forall_mem_nil x.Surrounds)
        ⟨hwords, hgivenUp rfl⟩
      refine .pure ?_
      rwa [List.append_nil]
    | true =>
      have hlooks := surrounds_of_looks (x := x) hwait.looks
      refine traces_attempt hroom frame hlooks fun _ => ?_
      obtain ⟨earlier, v, rfl, -, hv⟩ := hwait
      exact ⟨earlier, v, rfl, of_decide_eq_true hv⟩
  next h =>
    exact traces_attempt hroom frame (List.forall_mem_nil _)
      (Exchange.fits_of_not_sends h)

/-- What an exchange does on any hardware. -/
theorem traces_transfer (host : Host σ) (s : Link) (x : Exchange)
    (buffer : List Byte) (length : Nat) :
    (host.transfer s x buffer length).Traces
      (x.Course s (min length buffer.length) buffer host.settings)
      (x.Underway s (min length buffer.length) buffer host.settings) := by
  have hoffer := @traces_offer σ host s x _ buffer
    (Nat.min_le_right length buffer.length)
  rw [host.transfer_eq]
  refine traces_prepared ?_ fun _ => ?_
  · exact ((traces_quiesce x.channel).mono fun _ _ h => h.surrounds).weaken
      fun _ h => h.surrounds
  dsimp only
  split
  next hx => exact traces_prepared (traces_awaitFrame hx) fun _ => hoffer
  next => exact hoffer

end Transfer

/-! ## The start of an exchange -/

/-- The event starts the channel of the exchange. -/
def Exchange.Starts (x : Exchange) : Event Register → Prop
  | .write (.channel c .characteristics) v =>
    c = x.channel ∧ ChannelCharacteristics.enable.get ⟨v⟩ = true ∧
      ChannelCharacteristics.disable.get ⟨v⟩ = false
  | _ => False

section Start

variable {s : Link} {x : Exchange} {room : Nat} {buffer : List Byte}
  {d : Deadline} {events : List (Event Register)}

theorem starts_enableWord (oddFrame : Bool) :
    x.Starts (.write (.channel x.channel .characteristics)
      (x.enableWord s oddFrame)) := by
  obtain ⟨henable, hdisable, -⟩ := characteristics_fields x s oddFrame
  exact ⟨rfl, henable, hdisable⟩

/-- A launch, seen from the event that starts the channel. -/
theorem launching_split (oddFrame : Bool)
    (before after : List (Event Register)) :
    before ++ (x.launching s room buffer oddFrame ++ after) =
      (before ++ [.write (.channel x.channel .transferSize)
        (x.sizeWord s room), .barrier]) ++
      .write (.channel x.channel .characteristics) (x.enableWord s oddFrame) ::
      (x.pushing s room buffer ++ after) := by
  rw [List.append_assoc]
  rfl

/-- What does not end as an error has started its channel. -/
theorem Exchange.Course.exists_start {settings : Settings}
    {moved : Moved TransferError}
    (h : x.Course s room buffer settings events moved)
    (hresult : moved.result ≠ .error .error) :
    ∃ before launch after, events = before ++ launch :: after ∧
      x.Starts launch := by
  cases h with
  | refused => exact (hresult rfl).elim
  | @launched before after oddFrame =>
    exact ⟨_, _, _, launching_split oddFrame before _,
      starts_enableWord oddFrame⟩

/-- Nothing that is done around an exchange starts it. -/
theorem Exchange.Starts.not_surrounds {e : Event Register} (h : x.Starts e) :
    ¬ x.Surrounds e := by
  unfold Exchange.Starts at h
  split at h
  · intro hsurrounds
    have hdisable := hsurrounds.2
    rw [h.2.2] at hdisable
    exact Bool.false_ne_true hdisable
  · exact h.elim

/-- Pushing the words of a packet does not start its exchange. -/
theorem Exchange.Starts.notMem_pushing {e : Event Register}
    (h : x.Starts e) : e ∉ x.pushing s room buffer := by
  intro he
  rcases List.mem_cons.1 he with rfl | he
  · exact h
  · obtain ⟨v, -, rfl⟩ := List.mem_map.1 he
    exact h

theorem undecided_looks {c : Channel}
    (h : ∀ e ∈ events, e.Undecided c d) : ∀ e ∈ events, e.Looks := by
  intro e he
  have hundecided := h e he
  cases e with
  | read r v => trivial
  | clock t => trivial
  | _ => exact hundecided.elim

/-- Nothing is programmed once an exchange has been launched. -/
theorem Exchange.Concludes.surrounds {ending : Except TransferError Unit}
    (h : x.Concludes d events ending) : ∀ e ∈ events, x.Surrounds e := by
  cases h with
  | received hx hwatched hv htaken =>
    have hbefore := surrounds_of_looks (x := x) (undecided_looks hwatched)
    have hafter := surrounds_of_looks (x := x) htaken
    refine List.forall_mem_append.2 ⟨hbefore, ?_⟩
    refine List.forall_mem_cons.2 ⟨trivial, ?_⟩
    exact List.forall_mem_append.2 ⟨hafter,
      List.forall_mem_singleton.2 surrounds_clear⟩
  | told hwatched hv =>
    have hbefore := surrounds_of_looks (x := x) (undecided_looks hwatched)
    refine List.forall_mem_append.2 ⟨hbefore, ?_⟩
    exact List.forall_mem_cons.2 ⟨trivial,
      List.forall_mem_singleton.2 surrounds_clear⟩
  | expired hwatched ht hclosing =>
    have hbefore := surrounds_of_looks (x := x) (undecided_looks hwatched)
    refine List.forall_mem_append.2 ⟨hbefore, ?_⟩
    exact List.forall_mem_cons.2 ⟨trivial, hclosing.surrounds⟩

theorem Exchange.Lingers.surrounds (h : x.Lingers d events) :
    ∀ e ∈ events, x.Surrounds e := by
  cases h with
  | watching hwatched => exact surrounds_of_looks (undecided_looks hwatched)
  | receiving hx hwatched hv htaken =>
    have hbefore := surrounds_of_looks (x := x) (undecided_looks hwatched)
    refine List.forall_mem_append.2 ⟨hbefore, ?_⟩
    exact List.forall_mem_cons.2 ⟨trivial, surrounds_of_looks htaken⟩
  | expired hwatched ht hclosing =>
    have hbefore := surrounds_of_looks (x := x) (undecided_looks hwatched)
    refine List.forall_mem_append.2 ⟨hbefore, ?_⟩
    exact List.forall_mem_cons.2 ⟨trivial, hclosing.surrounds⟩

/-- There is one place at which an exchange is started. -/
theorem Exchange.start_unique {oddFrame : Bool} {start : Duration}
    {before after before' after' : List (Event Register)}
    {launch : Event Register} (hbefore : ∀ e ∈ before, x.Surrounds e)
    (hafter : ∀ e ∈ after, x.Surrounds e)
    (h : before ++ (x.launching s room buffer oddFrame ++
      .clock start :: after) = before' ++ launch :: after')
    (hlaunch : x.Starts launch) :
    before' = before ++
        [.write (.channel x.channel .transferSize) (x.sizeWord s room),
          .barrier] ∧
      after' = x.pushing s room buffer ++ .clock start :: after := by
  have hfirst : launch ∉ before ++
      [.write (.channel x.channel .transferSize) (x.sizeWord s room),
        .barrier] := by
    intro hmem
    rcases List.mem_append.1 hmem with hmem | hmem
    · exact hlaunch.not_surrounds (hbefore _ hmem)
    · rcases List.mem_cons.1 hmem with rfl | hmem
      · exact hlaunch
      · obtain rfl := List.mem_singleton.1 hmem
        exact hlaunch
  have hlast : launch ∉ x.pushing s room buffer ++ .clock start :: after := by
    intro hmem
    rcases List.mem_append.1 hmem with hmem | hmem
    · exact hlaunch.notMem_pushing hmem
    · rcases List.mem_cons.1 hmem with rfl | hmem
      · exact hlaunch
      · exact hlaunch.not_surrounds (hafter _ hmem)
  rw [launching_split] at h
  obtain ⟨hbefore', -, hafter'⟩ :=
    (List.append_cons_inj_of_notMem hfirst hlast).1 h
  exact ⟨hbefore'.symm, hafter'.symm⟩

/-- What is done around an exchange does not contain a start. -/
theorem Exchange.Starts.not_all_surround
    {before after : List (Event Register)} {launch : Event Register}
    (hlaunch : x.Starts launch) :
    ¬ ∀ e ∈ before ++ launch :: after, x.Surrounds e :=
  fun h => hlaunch.not_surrounds
    (h launch (List.mem_append_right before List.mem_cons_self))

/-- What comes after the start of an exchange that has ended. -/
theorem Exchange.Course.of_start {settings : Settings}
    {moved : Moved TransferError} {before after : List (Event Register)}
    {launch : Event Register}
    (h : x.Course s room buffer settings (before ++ launch :: after) moved)
    (hlaunch : x.Starts launch) :
    ∃ start seen, after = x.pushing s room buffer ++ .clock start :: seen ∧
      x.Concludes (.ofStart start settings.transferTimeout) seen
        (moved.result.map fun _ => ()) := by
  generalize hevents : before ++ launch :: after = events at h
  cases h with
  | refused hbefore hcrowded =>
    have hall := hcrowded.surrounds hbefore
    exact (hlaunch.not_all_surround (hevents ▸ hall)).elim
  | launched hbefore hfits hafter =>
    obtain ⟨-, rfl⟩ := Exchange.start_unique hbefore hafter.surrounds
      hevents.symm hlaunch
    exact ⟨_, _, rfl, hafter⟩

/-- What comes after the start of an exchange that has not ended. -/
theorem Exchange.Underway.of_start {settings : Settings}
    {before after : List (Event Register)} {launch : Event Register}
    (h : x.Underway s room buffer settings (before ++ launch :: after))
    (hlaunch : x.Starts launch) :
    ∃ start seen, after = x.pushing s room buffer ++ .clock start :: seen ∧
      x.Lingers (.ofStart start settings.transferTimeout) seen := by
  generalize hevents : before ++ launch :: after = events at h
  cases h with
  | preparing hbefore =>
    exact (hlaunch.not_all_surround (hevents ▸ hbefore)).elim
  | launched hbefore hfits hafter =>
    obtain ⟨-, rfl⟩ := Exchange.start_unique hbefore hafter.surrounds
      hevents.symm hlaunch
    exact ⟨_, _, rfl, hafter⟩

end Start

end UsbHost
