import UsbHost.Proofs.Host.Protocol
import UsbHost.Proofs.Machine.Ticking

/-!
# How long exchanges take

The driver watches the clock in all of its waits but one: the receive FIFO is
emptied for as long as the core says that there is something in it.  On a bus of
which nothing is known, with a clock that moves by a microsecond at each
reading, an exchange or a control transfer is over in time, or goes on emptying
the receive FIFO for ever.

## Main results

* `resolves_drain` — emptying the receive FIFO ends only where the core says
  that it is empty.
* `takes_await`, `takes_transfer` — exchanges.
* `takes_controlPacket`, `takes_dataStage`, `takes_control` — control transfers.
-/

namespace UsbHost

open Run Bench

/-! ## The driver and its clock -/

/-- The driver with its default settings on a bus, with a ticking clock. -/
abbrev Host.ticking {σ : Type} (bus : Bus Register σ) (spin : Bool) :
    Host (σ × TickingClock) :=
  { core := tickingMachine bus spin }

/-- The word of the interrupt status says that something has been received. -/
def Word.SaysReceived (v : Word) : Prop :=
  (Register.interruptStatus.decode v).contains CoreInterrupts.rxFifoLevel = true

/-- What the driver sees while it empties the receive FIFO: that there is
something in it, an entry, or a word of a packet. -/
def Event.Drains : Event Register → Prop
  | .read .interruptStatus v => v.SaysReceived
  | .read .rxStatusPop _ => True
  | .read (.fifo _) _ => True
  | _ => False

section Exchanges

variable {σ : Type} {bus : Bus Register σ} {spin : Bool}
  {E : Event Register → Prop}

/-! ## Accesses -/

section Accesses

variable (bus : Bus Register σ) (spin : Bool)

theorem untimed_load (r : Register) :
    Untimed ((Host.ticking bus spin).core.load r) :=
  fun _ => .of_eq (fun _ => rfl) rfl

theorem untimed_store (r : Register) (content : r.Content) :
    Untimed ((Host.ticking bus spin).core.store r content) :=
  fun _ => .of_eq (fun _ => rfl) rfl

theorem untimed_storeOnes (r : Register) :
    Untimed ((Host.ticking bus spin).core.storeOnes r) :=
  fun _ => .of_eq (fun _ => rfl) rfl

theorem untimed_barrier : Untimed (Host.ticking bus spin).core.barrier :=
  fun _ => .of_eq (fun _ => rfl) rfl

theorem untimed_inspect {α : Type} (r : Register) (f : r.Content → α) :
    Untimed (do return f (← (Host.ticking bus spin).core.load r)) :=
  (untimed_load bus spin r).bind fun content => .pure (f content)

theorem untimed_acknowledgePort (changes : PortChanges) :
    Untimed ((Host.ticking bus spin).core.acknowledgePort changes) :=
  (untimed_load bus spin _).bind fun _ => untimed_store bus spin _ _

theorem untimed_updatePort (change : PortControl) :
    Untimed ((Host.ticking bus spin).core.updatePort change) :=
  (untimed_load bus spin _).bind fun _ => untimed_store bus spin _ _

end Accesses

/-! ## The receive FIFO -/

theorem does_takePacket (c : Channel) (keep words : Nat) (stored : List Byte)
    (w : World Register (σ × TickingClock)) :
    ((Host.ticking bus spin).takePacket c keep words stored).Does Event.Drains w
      fun _ _ w' => w'.env.2 = w.env.2 := by
  induction words generalizing stored w with
  | zero => exact .pure rfl
  | succ words ih =>
    refine Does.bind (Q := fun _ _ w' => w'.env.2 = w.env.2)
      (.event (fun _ => rfl) trivial rfl) fun _ word v hv => ?_
    rw [← hv]
    exact ih _ v

/-- Emptying the receive FIFO takes no time.  It ends where the core says that
there is nothing in it, and goes on for ever if the core never says so. -/
theorem resolves_drain (c : Channel) (room : Nat)
    (w : World Register (σ × TickingClock)) :
    ((Host.ticking bus spin).drain c room).Resolves Event.Drains w fun _ w' =>
      w'.env.2 = w.env.2 ∧
        ∃ b, ¬ (bus.read .interruptStatus b).1.SaysReceived := by
  -- No measure falls: what ends the loop is a word that the bus may never show.
  refine .unbounded_loop (I := fun _ v => v.env.2 = w.env.2) ?_ rfl
  intro stored v hv
  by_cases hlevel : (bus.read .interruptStatus v.env.1).1.SaysReceived
  · have hload : ((Host.ticking bus spin).core.load .interruptStatus).Does
        Event.Drains v fun _ status v' =>
          status.contains CoreInterrupts.rxFifoLevel = true ∧
            v'.env.2 = w.env.2 :=
      .event (fun _ => rfl) hlevel ⟨hlevel, hv⟩
    refine .inr (hload.bind fun _ status v₁ ⟨hstatus, hv₁⟩ => ?_)
    rw [hstatus]
    have hpop : ((Host.ticking bus spin).core.load .rxStatusPop).Does
        Event.Drains v₁ fun events _ v' => events ≠ [] ∧ v'.env.2 = w.env.2 :=
      .event (fun _ => rfl) trivial ⟨List.cons_ne_nil _ _, hv₁⟩
    refine hpop.bind fun popped entry v₂ ⟨hpopped, hv₂⟩ => ?_
    dsimp only
    split
    · refine .pure ⟨hv₂, ?_⟩
      simp [hpopped]
    · refine (does_takePacket c _ _ stored v₂).bind ?_
      intro taken stored' v₃ hv₃
      refine .pure ⟨hv₃.trans hv₂, ?_⟩
      simp [hpopped]
  · obtain ⟨status, v₁, hload, hv₁, hstatus⟩ : ∃ status v₁,
        (∀ m, (Host.ticking bus spin).core.load .interruptStatus m v =
          .ok status v₁) ∧ v₁.env.2 = v.env.2 ∧
          status.contains CoreInterrupts.rxFifoLevel = false :=
      ⟨_, _, fun _ => rfl, rfl, Bool.eq_false_iff.2 hlevel⟩
    refine .inl ⟨stored, v₁, fun m => ?_, hv₁.trans hv, _, hlevel⟩
    refine bind_eq_ok.2 ⟨status, v₁, hload m, ?_⟩
    rw [hstatus]
    rfl

/-! ## Waits of an exchange -/

/-- The waits of the driver are short. -/
theorem nanos_ofMillis_le {n : Nat} (h : n ≤ 800) :
    (Duration.ofMillis n).nanos ≤ 800000000 :=
  Nat.le_trans (Nat.min_le_left _ _) (Nat.mul_le_mul_right 1000000 h)

theorem takes_brief {n : Nat} {condition : Run Register (σ × TickingClock) Bool}
    (hn : n ≤ 800) (hc : Untimed condition) :
    Takes E 1 ((Host.ticking bus spin).core.waitUntil (.ofMillis n) condition)
      fun _ => True :=
  .waitUntil bus spin (nanos_ofMillis_le hn) hc

theorem takes_quiesce (c : Channel) :
    Takes E 1 ((Host.ticking bus spin).quiesce c) fun _ => True := by
  have hclear : Takes E 0 ((Host.ticking bus spin).core.storeOnes
      (.channel c .interrupts)) fun _ => True :=
    (untimed_storeOnes bus spin _).takes
  refine .after (untimed_load bus spin _) fun chars => ?_
  by_cases henabled : ChannelCharacteristics.enable.get chars = true
  · rw [if_pos henabled]
    refine .after (untimed_store bus spin _ _) fun _ => ?_
    refine Takes.bind (l := 0) (takes_brief (by decide) ?_) fun _ _ => hclear
    exact untimed_inspect bus spin _ _
  · rw [if_neg henabled]
    exact hclear.within (Nat.zero_le 1)

theorem takes_awaitFrame :
    Takes E 1 (Host.ticking bus spin).awaitFrame fun _ => True := by
  refine .after (untimed_store bus spin _ _) fun _ => ?_
  refine Takes.bind (l := 0) (takes_brief (by decide) ?_) ?_
  · exact untimed_inspect bus spin _ _
  · exact fun _ _ => (untimed_store bus spin _ _).takes

theorem takes_awaitTxSpace (words : Nat) :
    Takes E 1 ((Host.ticking bus spin).awaitTxSpace words) fun _ => True :=
  takes_brief (by decide) (untimed_inspect bus spin _ _)

theorem untimed_launch (bus : Bus Register σ) (spin : Bool) (x : Exchange)
    (s : Link) {room : Nat} {buffer : List Byte}
    (hroom : room ≤ buffer.length) (chars : ChannelCharacteristics) :
    Untimed ((Host.ticking bus spin).launch x chars (x.requested s room)
      buffer) := by
  unfold Host.launch
  rw [narrow_eq (x.toNat_requested s room), pure_bind]
  have hbarrier := untimed_barrier bus spin
  have hstore := untimed_store bus spin
  refine (hstore _ _).bind fun _ => hbarrier.bind fun _ => ?_
  refine (hstore _ _).bind fun _ => hbarrier.bind fun _ => ?_
  by_cases hout : x.direction = .toDevice
  · have hle : x.requested s room ≤ room := x.requested_le s hout
    rw [if_pos hout, slice_eq (Nat.zero_le _) (Nat.le_trans hle hroom),
      pure_bind]
    exact .forM fun word => hstore _ _
  · rw [if_neg hout]
    exact .pure ()

/-! ## Exchanges -/

/-- The interrupts of the channel are acknowledged, and the exchange is over. -/
theorem resolves_finish {c : Channel} {moved : Moved TransferError} {n : Nat}
    {Q : Unit ⊕ Moved TransferError → World Register (σ × TickingClock) → Prop}
    {w : World Register (σ × TickingClock)} (hw : Spare n w.env.2)
    (hQ : ∀ w', Spare n w'.env.2 → Q (.inr moved) w') :
    (do
      (Host.ticking bus spin).core.storeOnes (.channel c .interrupts)
      return .inr moved : Run Register (σ × TickingClock) _).Resolves E w Q :=
  .of_yields ((untimed_storeOnes bus spin _ w).bind fun _ w' hw' =>
    .pure (hQ w' (hw' ▸ hw)))

/-- What an exchange does for ever if it does not end: only what receives can
go on emptying the receive FIFO. -/
def Exchange.Stalls (x : Exchange) (e : Event Register) : Prop :=
  x.direction = .toHost ∧ e.Drains

/-- The wait for the end of an exchange resolves at its deadline at the
latest. -/
theorem takes_await (x : Exchange) (requested : Nat) (buffer : List Byte)
    (room : Nat) :
    Takes x.Stalls 2 ((Host.ticking bus spin).await x requested buffer room)
      fun _ => True := by
  intro n w hw
  have htimeout : (Duration.ofMillis 50).nanos ≤ 800000000 :=
    nanos_ofMillis_le (by decide)
  refine resolves_until bus spin htimeout hw fun e v hv => ?_
  refine (Resolves.of_yields (untimed_load bus spin _ v)).bind ?_
  intro interrupts v₁ hv₁
  have hspare : Spare n v₁.env.2 := hv₁ ▸ hv.spare.fewer (Nat.le_succ n)
  split
  · cases hx : x.direction with
    | toHost =>
      have hstalls : ∀ e : Event Register, e.Drains → x.Stalls e :=
        fun _ he => ⟨hx, he⟩
      refine ((resolves_drain _ _ v₁).weaken hstalls).bind ?_
      intro received v₂ ⟨hv₂, _⟩
      exact resolves_finish (hv₂ ▸ hspare) fun _ h => ⟨trivial, h⟩
    | toDevice => exact resolves_finish hspare fun _ h => ⟨trivial, h⟩
  · exact resolves_finish hspare fun _ h => ⟨trivial, h⟩
  · refine resolves_expired bus spin hv hv₁ (fun v₂ hspare => ?_) ?_
    · exact (takes_quiesce x.channel n v₂ hspare).bind fun _ v₃ h => .pure h
    · exact fun v₂ hclock hearly => resolves_again hv hclock hearly

/-- An exchange on a channel at rest resolves as the wait for its end does. -/
theorem resolves_offer {s : Link} {x : Exchange} {buffer : List Byte}
    {room n : Nat} {Q : Moved TransferError → World Register _ → Prop}
    {w : World Register (σ × TickingClock)} (hroom : room ≤ buffer.length)
    (hw : Spare (n + 3) w.env.2)
    (hawait : ∀ v, Spare (n + 2) v.env.2 →
      ((Host.ticking bus spin).await x (x.requested s room) buffer
        room).Resolves E v Q)
    (hfull : x.direction = .toDevice → ∀ v, Spare n v.env.2 →
      Q ⟨.error .error, buffer⟩ v) :
    ((Host.ticking bus spin).offer s x buffer room).Resolves E w Q := by
  have hlaunch : ∀ (frame : Half) v, Spare (n + 2) v.env.2 →
      ((Host.ticking bus spin).attempt s x buffer room frame true).Resolves E v
        Q := by
    intro frame v hv
    refine (Resolves.of_yields (untimed_launch bus spin x s hroom _ v)).bind ?_
    exact fun _ v' hv' => hawait v' (hv' ▸ hv)
  refine (Resolves.of_yields (untimed_store bus spin _ _ w)).bind ?_
  intro _ w₁ hw₁
  refine (Resolves.of_yields (untimed_load bus spin _ w₁)).bind ?_
  intro frame w₂ hw₂
  refine (Resolves.of_yields (untimed_storeOnes bus spin _ w₂)).bind ?_
  intro _ w₃ hw₃
  have hspare : Spare (n + 2 + 1) w₃.env.2 := by
    rw [hw₃, hw₂, hw₁]
    exact hw
  by_cases hsends : x.direction = .toDevice ∧ 0 < x.requested s room
  · simp only [if_pos hsends]
    refine (takes_awaitTxSpace _ (n + 2) w₃ hspare).bind ?_
    intro fits v ⟨_, hv⟩
    cases fits with
    | true => exact hlaunch frame v hv
    | false => exact .pure (hfull hsends.1 v (hv.fewer (Nat.le_add_right n 2)))
  · simp only [if_neg hsends, pure_bind]
    exact hlaunch frame w₃ (hspare.fewer (Nat.le_succ _))

/-- An exchange resolves as the wait for its end does. -/
theorem resolves_transfer {s : Link} {x : Exchange} {buffer : List Byte}
    {length n : Nat} {Q : Moved TransferError → World Register _ → Prop}
    {w : World Register (σ × TickingClock)} (hw : Spare (n + 5) w.env.2)
    (hawait : ∀ v, Spare (n + 2) v.env.2 →
      ((Host.ticking bus spin).await x
        (x.requested s (min length buffer.length)) buffer
        (min length buffer.length)).Resolves E v Q)
    (hfull : x.direction = .toDevice → ∀ v, Spare n v.env.2 →
      Q ⟨.error .error, buffer⟩ v) :
    ((Host.ticking bus spin).transfer s x buffer length).Resolves E w Q := by
  have hoffer : ∀ v, Spare (n + 3) v.env.2 →
      ((Host.ticking bus spin).offer s x buffer
        (min length buffer.length)).Resolves E v Q :=
    fun v hv => resolves_offer (Nat.min_le_right _ _) hv hawait hfull
  rw [Host.transfer_eq]
  refine (takes_quiesce x.channel (n + 4) w hw).bind fun _ v ⟨_, hv⟩ => ?_
  by_cases hcontrol : x.type = .control
  · rw [if_pos hcontrol]
    refine (takes_awaitFrame (n + 3) v hv).bind ?_
    exact fun _ v' ⟨_, hv'⟩ => hoffer v' hv'
  · rw [if_neg hcontrol]
    exact hoffer v (hv.fewer (Nat.le_succ _))

/-- An exchange ends in time, unless it is one that receives and goes on
emptying the receive FIFO for ever. -/
theorem takes_transfer (s : Link) (x : Exchange) (buffer : List Byte)
    (length : Nat) :
    Takes x.Stalls 5 ((Host.ticking bus spin).transfer s x buffer length)
      fun _ => True :=
  fun n _ hw => resolves_transfer hw (takes_await x _ buffer _ n)
    fun _ _ hv => ⟨trivial, hv⟩

/-! ## Control transfers -/

/-- The buffer has kept its length, and the bytes reported to be moved lie in
it. -/
def Moved.Within {ε : Type} (moved : Moved ε) (length : Nat) : Prop :=
  moved.buffer.length = length ∧
    ∀ count, moved.result = .ok count → count ≤ length

/-- A packet ends in time if each attempt at it does. -/
theorem takes_persist {stage : Stage}
    {exchange :
      List Byte → Run Register (σ × TickingClock) (Moved TransferError)}
    (hexchange : ∀ b, Takes E 5 (exchange b) fun _ => True) (limit : Nat)
    (buffer : List Byte) :
    Takes E (6 * limit) ((Host.ticking bus spin).persist stage exchange limit
      buffer) fun _ => True := by
  induction limit generalizing buffer with
  | zero => exact .pure trivial
  | succ left ih =>
    refine Takes.bind (l := 6 * left + 1) (hexchange buffer) fun moved _ => ?_
    obtain ⟨result, bytes⟩ := moved
    cases result with
    | ok count => exact .pure trivial
    | error cause =>
      cases cause with
      | nak =>
        dsimp only
        by_cases hleft : 0 < left
        · rw [if_pos hleft]
          refine Takes.bind (.delay bus spin ?_) fun _ _ => ih bytes
          exact nanos_ofMillis_le (by decide)
        · rw [if_neg hleft]
          exact (ih bytes).within (Nat.le_succ _)
      | _ => exact .pure trivial

/-- What is known of a packet on endpoint 0 after its exchange: it has kept its
length, it is sent in full, and no more is received than there is room for. -/
def Link.Exchanged (s : Link) (p : Protocol.Packet) (moved : Moved UsbError) :
    Prop :=
  moved.buffer.length = p.bytes.length ∧
    ∀ count, moved.result = .ok count →
      (p.direction = .toDevice →
        count = min p.bytes.length s.ep0MaxPacket.toNat) ∧
      (p.direction = .toHost → count ≤ p.bytes.length)

theorem takes_controlPacket (s : Link) (stage : Stage) (p : Protocol.Packet) :
    Takes Event.Drains 600 ((Host.ticking bus spin).controlPacket s stage
      p.direction p.pid p.bytes) (s.Exchanged p) := by
  have hattempts : Takes Event.Drains 600 ((Host.ticking bus spin).controlPacket
      s stage p.direction p.pid p.bytes) fun _ => True :=
    takes_persist (fun b => (takes_transfer s _ b _).weaken fun _ h => h.2) 100
      p.bytes
  refine (hattempts.and_yields (S := s.Exchanged p) fun w => ?_).mono ?_
  · refine (Protocol.yields_controlPacket stage p w).mono ?_
    exact fun _ _ ⟨_, _, _, hlength, hcount⟩ => ⟨hlength, hcount⟩
  · exact fun _ h => h.1

/-- A data stage takes no longer than a packet for each of its bytes would. -/
theorem takes_dataStage {s : Link} (hs : 0 < s.ep0MaxPacket.toNat)
    (direction : Direction) {total : Nat} {buffer : List Byte}
    (htotal : total ≤ buffer.length) :
    Takes Event.Drains (600 * total)
      ((Host.ticking bus spin).dataStage s direction total buffer)
      fun moved => moved.Within buffer.length := by
  intro n w hw
  -- For each byte still to be moved the time of a packet is left; a packet that
  -- is followed by another one has moved at least one byte.
  refine .loop (fun stage v => stage.moved ≤ total ∧
    stage.buffer.length = buffer.length ∧
    Spare (n + 600 * (total - stage.moved)) v.env.2)
    (fun stage _ => total - stage.moved) ?_ ⟨Nat.zero_le total, rfl, hw⟩
  intro stage v ⟨hmoved, hlength, hspare⟩
  by_cases hmore : stage.moved < total
  · rw [if_pos hmore]
    dsimp only
    obtain ⟨size, hsize⟩ :
      ∃ size, size = min (total - stage.moved) s.ep0MaxPacket.toNat := ⟨_, rfl⟩
    rw [← hsize, slice_eq (Nat.le_add_right _ _) (by omega), pure_bind]
    let p : Protocol.Packet := ⟨direction, stage.pid,
      (stage.buffer.take (stage.moved + size)).drop stage.moved⟩
    have hp : p.bytes.length = size := by
      simp [p]
      omega
    have hleft : Spare (n + 600 * (total - (stage.moved + size)) + 600)
        v.env.2 := hspare.fewer (by omega)
    refine (takes_controlPacket s .data p _ v hleft).bind ?_
    intro packet v' ⟨⟨hbytes, hcount⟩, hv'⟩
    obtain ⟨result, bytes⟩ := packet
    rw [hp] at hbytes hcount
    have hwhole : (stage.buffer.take stage.moved ++ bytes ++
        stage.buffer.drop (stage.moved + size)).length = buffer.length := by
      simp [hbytes]
      omega
    have hspare' : Spare n v'.env.2 := hv'.fewer (Nat.le_add_right _ _)
    cases result with
    | error e => exact .pure ⟨⟨hwhole, nofun⟩, hspare'⟩
    | ok count =>
      obtain ⟨hout, hin⟩ := hcount count rfl
      dsimp only
      by_cases hshort : direction = .toHost ∧ count < s.ep0MaxPacket.toNat
      · rw [if_pos hshort]
        refine .pure ⟨⟨hwhole, fun moved hok => ?_⟩, hspare'⟩
        have hle := hin hshort.1
        cases hok
        omega
      · rw [if_neg hshort]
        have hlarge : direction = .toHost → s.ep0MaxPacket.toNat ≤ count :=
          fun hd => Nat.le_of_not_lt fun hlt => hshort ⟨hd, hlt⟩
        obtain rfl : count = size :=
          Protocol.moved_in_full hout hin hlarge (by omega)
        refine .pure ⟨⟨?_, hwhole, hv'⟩, fun _ => ?_⟩
        · simp only
          omega
        · simp only
          omega
  · rw [if_neg hmore]
    refine .pure ⟨⟨hlength, fun count hok => ?_⟩, hspare.fewer (by omega)⟩
    cases hok
    exact Nat.le_trans hmoved htotal

theorem takes_statusStage (s : Link) (direction : Direction) {count : Nat}
    {buffer : List Byte} (hcount : count ≤ buffer.length) :
    Takes Event.Drains 600
      ((Host.ticking bus spin).statusStage s direction count buffer)
      fun moved => moved.Within buffer.length := by
  refine Takes.bind (l := 0)
    (takes_controlPacket s .status ⟨direction, .data1, []⟩) fun packet _ => ?_
  cases packet.result with
  | error e => exact .pure ⟨rfl, nofun⟩
  | ok n =>
    refine .pure ⟨rfl, fun moved hok => ?_⟩
    cases hok
    exact hcount

/-- A control transfer is over in time, or receives without end. -/
theorem takes_control {s : Link} (hs : 0 < s.ep0MaxPacket.toNat)
    (setup : SetupPacket) (buffer : List Byte) :
    Takes Event.Drains 40000000
      ((Host.ticking bus spin).control s setup buffer)
      fun moved => moved.Within buffer.length := by
  have hannounced := (SetupPacket.length.get setup).isLt
  refine Takes.bind (l := 39999400) (takes_controlPacket s .setup
    ⟨.toDevice, .setup, setup.bytes⟩) fun sent _ => ?_
  cases sent.result with
  | error e => exact .pure ⟨rfl, nofun⟩
  | ok n =>
    dsimp only
    by_cases hdata :
        0 < min (SetupPacket.length.get setup).toNat buffer.length
    · rw [if_pos hdata]
      refine Takes.within (Takes.bind (l := 600)
        (takes_dataStage hs _ (Nat.min_le_right _ _))
        fun moved hmoved => ?_) (by omega)
      obtain ⟨result, bytes⟩ := moved
      obtain ⟨hlength, hcount⟩ := hmoved
      cases result with
      | error e => exact .pure ⟨hlength, nofun⟩
      | ok count =>
        have hfits : count ≤ bytes.length :=
          hlength ▸ hcount count rfl
        rw [← hlength]
        exact takes_statusStage s _ hfits
    · rw [if_neg hdata]
      exact (takes_statusStage s _ (Nat.zero_le _)).within (by decide)

end Exchanges

end UsbHost
