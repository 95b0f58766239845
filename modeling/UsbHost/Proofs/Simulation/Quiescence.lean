import UsbHost.Bench.Environment
import UsbHost.Proofs.Simulation.Framing

/-!
# Channels at rest

Whatever an exchange comes to, it leaves its channel disabled and without
interrupts, and no packet half sent.  So between operations no channel is in
use, and what an exchange sees in its interrupt register it has caused itself:
its transaction, or the halting of its channel.

## Main results

* `Quiet.calms`, `Quiet.outcome` — accesses that start nothing, and whole
  exchanges, leave no channel in use.
* `always_transfer_observed` — what an exchange can read in interrupt registers.
* `conductsAll_quiet` — every operation of the driver keeps to this.
* `channels_quiescent` — any number of operations.
-/

namespace UsbHost.Simulation

open Run

variable {τ : Type} {clock : Clock τ} {settings : Settings}

/-! ## Quiet channels -/

/-- No channel is in use, and no packet waits for its words. -/
structure Controller.Quiet (k : Controller) : Prop where
  enabled : ∀ c, (k.channel c).enabled = false
  interrupts : ∀ c, (k.channel c).interrupts = 0
  pendingOut : k.pendingOut = none

/-- From `k` to `k'` nothing has been started and no interrupt raised. -/
structure Calms (k k' : Controller) : Prop where
  enabled : ∀ c, (k'.channel c).enabled = true → (k.channel c).enabled = true
  interrupts : ∀ c, (k'.channel c).interrupts = 0 ∨
    (k'.channel c).interrupts = (k.channel c).interrupts
  pendingOut : k'.pendingOut = k.pendingOut

namespace Calms

variable {k k' : Controller}

/-- What does not concern the channels. -/
theorem of_channels (hchannels : k'.channels = k.channels)
    (hpending : k'.pendingOut = k.pendingOut) : Calms k k' := by
  have hsame : ∀ c, k'.channel c = k.channel c := by
    intro c
    unfold Controller.channel
    rw [hchannels]
  constructor
  · intro c hc
    rw [← hsame]
    exact hc
  · intro c
    rw [hsame]
    exact .inr rfl
  · exact hpending

/-- A calm change of one channel. -/
theorem updateChannel (h : Calms k k') {c : Channel}
    {f : ChannelState → ChannelState}
    (henabled : (f (k'.channel c)).enabled = true →
      (k'.channel c).enabled = true)
    (hinterrupts : (f (k'.channel c)).interrupts = 0 ∨
      (f (k'.channel c)).interrupts = (k'.channel c).interrupts) :
    Calms k (k'.updateChannel c f) := by
  constructor
  · intro d
    by_cases hd : d = c
    · subst hd
      rw [k'.channel_updateChannel_self]
      exact fun hf => h.enabled d (henabled hf)
    · rw [k'.channel_updateChannel_of_ne hd]
      exact h.enabled d
  · intro d
    by_cases hd : d = c
    · subst hd
      rw [k'.channel_updateChannel_self]
      rcases hinterrupts with hzero | hsame
      · exact .inl hzero
      · rw [hsame]
        exact h.interrupts d
    · rw [k'.channel_updateChannel_of_ne hd]
      exact h.interrupts d
  · exact h.pendingOut

/-- Counting a write. -/
theorem counted (k : Controller) (writes : Nat) :
    Calms k { k with writes } :=
  .of_channels rfl rfl

/-! ### Accesses -/

theorem read (k : Controller) (r : Register) : Calms k (k.read r).2 := by
  cases r with
  | _ => exact .of_channels rfl rfl

theorem write (k : Controller) {r : Register} (hr : r.Inner) (v : Word) :
    Calms k (k.write r v) := by
  cases r with
  | port => exact hr.elim
  | fifo c => exact hr.elim
  | channel c r =>
    obtain rfl : r = .interruptMask := hr
    show Calms k ({ k with writes := k.writes + 1 }.updateChannel c
      ({ · with mask := v }))
    exact (counted k _).updateChannel id (.inr rfl)
  | _ => exact .of_channels rfl rfl

theorem split (k : Controller) (c : Channel) (v : Word) :
    Calms k (k.write (.channel c .splitControl) v) := by
  show Calms k ({ k with writes := k.writes + 1 }.updateChannel c
    ({ · with split := v }))
  exact (counted k _).updateChannel id (.inr rfl)

theorem clear (k : Controller) (c : Channel) :
    Calms k (k.write (.channel c .interrupts) (BitVec.allOnes 32)) := by
  show Calms k ({ k with writes := k.writes + 1 }.updateChannel c fun s =>
    { s with interrupts := s.interrupts &&& ~~~(BitVec.allOnes 32) })
  refine (counted k _).updateChannel id (.inl ?_)
  simp

/-- Halting a channel that is not running. -/
theorem halt {c : Channel} (hc : (k.channel c).enabled = false)
    (chars : ChannelCharacteristics) :
    Calms k (k.write (.channel c .characteristics)
      (ChannelCharacteristics.disable.set true chars).raw) := by
  have hdisable : ChannelCharacteristics.disable.get
      (ChannelCharacteristics.disable.set true chars) = true :=
    BitField.get_set _ _ _
  unfold Controller.write Controller.writeChannel
  dsimp only
  rw [if_pos hdisable]
  refine (counted k _).updateChannel nofun (.inr ?_)
  exact if_neg (ne_true_of_eq_false hc)

theorem writePort (k : Controller) (v : Word) :
    Calms k (k.write .port v) := by
  simp only [Controller.write, Controller.writePort]
  split
  · exact .of_channels rfl rfl
  · split
    · exact .of_channels rfl rfl
    · exact .of_channels rfl rfl

end Calms

/-- What a transaction does beside its channel: no channel changes, and no
packet is left half sent. -/
theorem sent_channels (k : Controller) (t : Transaction) :
    (k.sent t).channels = k.channels ∧
      (k.pendingOut = none → (k.sent t).pendingOut = none) := by
  unfold Controller.sent Controller.carried
  split
  · dsimp only
    split <;> exact ⟨rfl, fun _ => rfl⟩
  · dsimp only
    split <;> exact ⟨rfl, id⟩

namespace Controller.Quiet

variable {k k' : Controller}

theorem calms (h : k.Quiet) (hk : Calms k k') : k'.Quiet := by
  constructor
  · intro c
    refine Bool.eq_false_iff.2 fun hc => ?_
    exact Bool.false_ne_true ((h.enabled c).symm.trans (hk.enabled c hc))
  · intro c
    rcases hk.interrupts c with hzero | hsame
    · exact hzero
    · rw [hsame]
      exact h.interrupts c
  · rw [hk.pendingOut]
    exact h.pendingOut

/-! ### Exchanges -/

theorem sent (h : k.Quiet) (t : Transaction) : (k.sent t).Quiet := by
  obtain ⟨hchannels, hpending⟩ := sent_channels k t
  exact h.calms (.of_channels hchannels
    ((hpending h.pendingOut).trans h.pendingOut.symm))

/-- However an exchange comes out, the core apart from its channel is as quiet
as before. -/
theorem outcome (h : k.Quiet) (s : Link) (x : Exchange) (buffer : List Byte)
    (room : Nat) : (k.outcome s x buffer room).2.Quiet := by
  have hsent := h.sent (x.transaction s buffer room)
  rcases outcome_cases k s x buffer room with
    ⟨-, ho⟩ | ⟨-, ⟨e, -, ho⟩ | ⟨data, -, -, ho⟩ | ⟨data, -, -, ho⟩⟩
  · rw [ho]
    exact h
  · rw [ho]
    exact hsent
  · rw [ho]
    exact hsent
  · rw [ho]
    exact hsent.calms (.of_channels rfl rfl)

/-- And its channel is at rest. -/
theorem rests (h : k.Quiet) {c : Channel} (hk : Rests c k k') : k'.Quiet := by
  obtain ⟨s, henabled, hinterrupts, writes, frame, rfl⟩ := hk
  have hchannel : Calms k (k.updateChannel c fun _ => s) := by
    refine (Calms.of_channels rfl rfl).updateChannel ?_ (.inl hinterrupts)
    rw [henabled]
    exact nofun
  exact (h.calms hchannel).calms (.of_channels rfl rfl)

end Controller.Quiet

/-- An exchange on a quiet core leaves a quiet core. -/
theorem quiet_of_transfer {link : Link} {x : Exchange} {buffer : List Byte}
    {length patience : Nat} {w w' : World Register (Controller × τ)}
    {moved : Moved TransferError} (h : w.env.1.Quiet)
    (hrun : (hostOn clock settings).transfer link x buffer length patience w =
      .ok moved w') : w'.env.1.Quiet := by
  obtain ⟨-, hrests⟩ :=
    (leads_transfer (T := False) rfl False.elim).of_run rfl hrun
  exact (h.outcome _ _ _ _).rests hrests

/-! ## What an exchange sees -/

/-- The channel has been enabled. -/
def Enables (c : Channel) (events : List (Event Register)) : Prop :=
  ∃ chars : ChannelCharacteristics,
    ChannelCharacteristics.enable.get chars = true ∧
    ChannelCharacteristics.disable.get chars = false ∧
    .write (.channel c .characteristics) chars.raw ∈ events

/-- The channel has been told to stop. -/
def Disables (c : Channel) (events : List (Event Register)) : Prop :=
  ∃ chars : ChannelCharacteristics,
    ChannelCharacteristics.disable.get chars = true ∧
    .write (.channel c .characteristics) chars.raw ∈ events

/-- What a channel can have for interrupts after the events of an exchange, the
transaction of which is answered with `r`: none at all, or, on the channel of
the exchange, just those of the response once the channel has been enabled, or
that it has halted once it has been told to. -/
def Causes (x : Exchange) (r : Response)
    (events : List (Event Register)) (c : Channel) (v : Word) : Prop :=
  v = 0 ∨ c = x.channel ∧
    (v = (Controller.raised r).bits ∧ Enables c events ∨
      r = .silent ∧ v = ChannelInterrupts.halted.bits ∧ Disables c events)

/-- All interrupts that were read, the latest event being the first, have been
caused by the events before. -/
def Observes (x : Exchange) (r : Response) :
    List (Event Register) → Prop
  | [] => True
  | e :: earlier =>
    (∀ c v, e = .read (.channel c .interrupts) v → Causes x r earlier c v) ∧
      Observes x r earlier

/-- Since `earlier`, an exchange has read only what it has caused, and `S` holds
of the events of this time. -/
def Observed (x : Exchange) (r : Response) (earlier : List (Event Register))
    (S : List (Event Register) → Prop) (log : List (Event Register)) : Prop :=
  ∃ events, log = events ++ earlier ∧ Observes x r events ∧ S events

section Observing

variable {x : Exchange} {r : Response} {earlier log : List (Event Register)}
  {S : List (Event Register) → Prop}

theorem Causes.cons {events : List (Event Register)} {c : Channel}
    {v : Word} (h : Causes x r events c v) (e : Event Register) :
    Causes x r (e :: events) c v := by
  rcases h with hzero | ⟨hc, ⟨hv, chars, hen, hdis, hmem⟩ |
    ⟨hr, hv, chars, hdis, hmem⟩⟩
  · exact .inl hzero
  · have hmem := List.mem_cons_of_mem e hmem
    exact .inr ⟨hc, .inl ⟨hv, chars, hen, hdis, hmem⟩⟩
  · have hmem := List.mem_cons_of_mem e hmem
    exact .inr ⟨hc, .inr ⟨hr, hv, chars, hdis, hmem⟩⟩

/-- One more event. -/
theorem Observed.cons {S' : List (Event Register) → Prop} {e : Event Register}
    (h : Observed x r earlier S log)
    (hread : ∀ events c v, S events → e = .read (.channel c .interrupts) v →
      Causes x r events c v)
    (hS : ∀ events, S events → S' (e :: events)) :
    Observed x r earlier S' (e :: log) := by
  obtain ⟨events, hlog, hobserves, hs⟩ := h
  refine ⟨e :: events, congrArg (e :: ·) hlog, ?_, hS events hs⟩
  exact ⟨fun c v => hread events c v hs, hobserves⟩

theorem Observed.mono {S' : List (Event Register) → Prop}
    (h : Observed x r earlier S log) (hS : ∀ events, S events → S' events) :
    Observed x r earlier S' log := by
  obtain ⟨events, hlog, hobserves, hs⟩ := h
  exact ⟨events, hlog, hobserves, hS events hs⟩

/-! ### Watching the channel -/

/-- The interrupts of all channels are as they should be. -/
def Caused (x : Exchange) (r : Response) (k : Controller)
    (events : List (Event Register)) : Prop :=
  ∀ c, Causes x r events c (k.channel c).interrupts

/-- An exchange that is being watched: whatever it reads next it has caused, and
its channel is busy only if nothing is said. -/
structure Watched (x : Exchange) (r : Response)
    (earlier : List (Event Register))
    (w : World Register (Controller × τ)) : Prop where
  observed : Observed x r earlier (Caused x r w.env.1) w.log
  busy : (w.env.1.channel x.channel).enabled = true →
    r = .silent ∧ (w.env.1.channel x.channel).interrupts = 0

variable {w : World Register (Controller × τ)}

/-- An access that starts nothing. -/
theorem Watched.calms (h : Watched x r earlier w) {e : Event Register}
    {k' : Controller} (hk : Calms w.env.1 k') (t : τ)
    (hread : ∀ c v, e = .read (.channel c .interrupts) v →
      v = (w.env.1.channel c).interrupts) :
    Watched x r earlier ⟨(k', t), e :: w.log⟩ := by
  constructor
  · refine h.observed.cons (fun events c v hs he => ?_) fun events hs c => ?_
    · rw [hread c v he]
      exact hs c
    · rcases hk.interrupts c with hzero | hsame
      · exact .inl hzero
      · rw [hsame]
        exact (hs c).cons e
  · intro henabled
    obtain ⟨hr, hnone⟩ := h.busy (hk.enabled _ henabled)
    refine ⟨hr, ?_⟩
    rcases hk.interrupts x.channel with hzero | hsame
    · exact hzero
    · exact hsame.trans hnone

/-- Telling the channel to stop. -/
theorem Watched.halt (h : Watched x r earlier w)
    (chars : ChannelCharacteristics) (t : τ) :
    let v := (ChannelCharacteristics.disable.set true chars).raw
    let e := .write (.channel x.channel .characteristics) v
    Watched x r earlier
      ⟨(w.env.1.write (.channel x.channel .characteristics) v, t),
        e :: w.log⟩ := by
  intro v e
  cases henabled : (w.env.1.channel x.channel).enabled with
  | false => exact h.calms (.halt henabled chars) t nofun
  | true =>
    obtain ⟨hr, hnone⟩ := h.busy henabled
    obtain ⟨s, hs, hraised, hk⟩ :=
      (Beside.refl x.channel w.env.1).disabled henabled chars
    rw [hnone] at hraised
    have hdisables : ∀ events, Disables x.channel (e :: events) :=
      fun events => ⟨_, BitField.get_set _ true chars, List.mem_cons_self⟩
    constructor
    · refine h.observed.cons (fun _ _ _ _ => nofun) fun events hcaused c => ?_
      by_cases hc : c = x.channel
      · subst hc
        refine .inr ⟨rfl, .inr ⟨hr, ?_, hdisables events⟩⟩
        rw [hk.channel_eq, hraised]
        exact BitVec.zero_or
      · rw [hk.channel_of_ne hc]
        exact (hcaused c).cons e
    · intro hbusy
      rw [hk.channel_eq, hs] at hbusy
      exact nomatch hbusy

/-- What a watched exchange does with its channel, it sees as it should. -/
theorem tends_watched :
    (hostOn clock settings).Tends x.channel (Watched (τ := τ) x r earlier) where
  now := fun w hw =>
    .of_eq (fun _ => rfl) (hw.calms (.of_channels rfl rfl) _ nofun)
  skip f d w hf hw := by
    obtain ⟨g, -, rfl⟩ := Option.map_eq_some_iff.1 hf
    exact hw.calms (.of_channels rfl rfl) _ nofun
  read r' hr w hw := by
    refine .of_eq (fun _ => rfl) (hw.calms (.read _ r') _ fun c v he => ?_)
    cases he
    rfl
  frame v := fun w hw =>
    .of_eq (fun _ => rfl)
      (hw.calms (Calms.write _ (r := .interruptStatus) trivial v) _ nofun)
  split := fun w hw => .of_eq (fun _ => rfl) (hw.calms (.split _ _ 0) _ nofun)
  clear := fun w hw => .of_eq (fun _ => rfl) (hw.calms (.clear _ _) _ nofun)
  halt chars := fun w hw => .of_eq (fun _ => rfl) (hw.halt chars _)

theorem preserves_drain_watched (room : Nat) :
    Preserves (Watched (τ := τ) x r earlier)
      ((hostOn clock settings).drain x.channel room) := by
  refine Host.preserves_drain (fun r' _ w hw => ?_) x.channel room
  refine .of_eq (fun _ => rfl) (hw.calms (.read _ r') _ fun c v he => ?_)
  cases he
  rfl

/-! ### Before the channel is enabled -/

/-- The event shows no interrupts. -/
def Blank (e : Event Register) : Prop :=
  ∀ c v, e = .read (.channel c .interrupts) v → v = 0

/-- No channel is in use, the device is `d`, and the log satisfies `L`. -/
structure Resting (d : Device) (L : List (Event Register) → Prop)
    (w : World Register (Controller × τ)) : Prop where
  quiet : w.env.1.Quiet
  device : w.env.1.device = d
  log : L w.log

section Resting

variable {d : Device} {L : List (Event Register) → Prop}
  (hL : ∀ e log, Blank e → L log → L (e :: log))

include hL

/-- An access that starts nothing. -/
theorem Resting.calms (h : Resting d L w) {e : Event Register}
    {k' : Controller} (hk : Calms w.env.1 k')
    (hdevice : k'.device = w.env.1.device) (t : τ) (he : Blank e) :
    Resting d L ⟨(k', t), e :: w.log⟩ :=
  ⟨h.quiet.calms hk, hdevice.trans h.device, hL e w.log he h.log⟩

/-- A quiet channel shows no interrupts, and halting it starts nothing. -/
theorem tends_resting (c : Channel) :
    (hostOn clock settings).Tends c (Resting (τ := τ) d L) where
  now := fun w hw =>
    .of_eq (fun _ => rfl) (hw.calms hL (.of_channels rfl rfl) rfl _ nofun)
  skip f d w hf hw := by
    obtain ⟨g, -, rfl⟩ := Option.map_eq_some_iff.1 hf
    exact hw.calms hL (.of_channels rfl rfl) rfl _ nofun
  read r' hr w hw := by
    have hdevice : (w.env.1.read r').2.device = w.env.1.device := by
      cases r' with
      | _ => rfl
    refine .of_eq (fun _ => rfl)
      (hw.calms hL (.read _ r') hdevice _ fun c v he => ?_)
    cases he
    exact hw.quiet.interrupts c
  frame v := fun w hw =>
    .of_eq (fun _ => rfl)
      (hw.calms hL (Calms.write _ (r := .interruptStatus) trivial v) rfl _
        nofun)
  split := fun w hw =>
    .of_eq (fun _ => rfl) (hw.calms hL (.split _ _ 0) rfl _ nofun)
  clear := fun w hw =>
    .of_eq (fun _ => rfl) (hw.calms hL (.clear _ _) rfl _ nofun)
  halt chars := fun w hw =>
    .of_eq (fun _ => rfl)
      (hw.calms hL (.halt (hw.quiet.enabled c) chars)
        (still_disable c chars).device _ nofun)

end Resting

/-! ### The whole exchange -/

section Transfer

variable {link : Link} {buffer : List Byte} {room : Nat}

/-- What only writes does not observe anything. -/
theorem preserves_observed_write
    (hS : ∀ e events, S events → S (e :: events)) (r' : Register) (v : Word) :
    Preserves (fun w => Observed x r earlier S w.log)
      ((hostOn clock settings).core.write r' v) :=
  fun _ hw => .of_eq (fun _ => rfl) (hw.cons (fun _ _ _ _ => nofun) (hS _))

/-- Launching an exchange observes nothing, and enables its channel. -/
theorem always_launch_observed (oddFrame : Bool)
    (h : Observed x r earlier (fun _ => True) w.log) :
    ((hostOn clock settings).launch x (x.characteristics link oddFrame)
        (x.requested link room) buffer).Always w
      (fun _ w' => Observed x r earlier (Enables x.channel) w'.log)
      fun w' => Observed x r earlier (fun _ => True) w'.log := by
  have hforget : ∀ w' : World Register (Controller × τ),
      Observed x r earlier (Enables x.channel) w'.log →
        Observed x r earlier (fun _ => True) w'.log :=
    fun _ hw => hw.mono fun _ _ => trivial
  have henabled : ∀ e events, Enables x.channel events →
      Enables x.channel (e :: events) := by
    rintro e events ⟨chars, hen, hdis, hmem⟩
    exact ⟨chars, hen, hdis, List.mem_cons_of_mem e hmem⟩
  have hbarrier : ∀ {S : List (Event Register) → Prop},
      (∀ e events, S events → S (e :: events)) →
      Preserves (fun w => Observed x r earlier S w.log)
        (hostOn clock settings).core.barrier :=
    fun hS _ hw => .of_eq (fun _ => rfl) (hw.cons (fun _ _ _ _ => nofun) (hS _))
  have hwords : Preserves
      (fun w => Observed x r earlier (Enables x.channel) w.log) (do
        if x.direction = .toDevice then
          let packet ← Run.slice buffer 0 (x.requested link room)
          (packetWords packet).forM
            ((hostOn clock settings).core.store (.fifo x.channel))) := by
    refine .ite (fun _ => ?_) fun _ => .pure ()
    refine (Preserves.slice _ _ _).bind fun packet => .forM fun word => ?_
    exact preserves_observed_write henabled _ _
  obtain ⟨henable, hdisable, -⟩ := characteristics_fields x link oddFrame
  have hstart : ∀ w : World Register (Controller × τ),
      Observed x r earlier (fun _ => True) w.log →
      ((hostOn clock settings).core.store (.channel x.channel .characteristics)
        (ChannelCharacteristics.enable.set true
          (x.characteristics link oddFrame))).Always w
        (fun _ w' => Observed x r earlier (Enables x.channel) w'.log)
        fun w' => Observed x r earlier (fun _ => True) w'.log := by
    refine fun w hw => .of_eq (fun _ => rfl) (hw.cons (fun _ _ _ _ => nofun) ?_)
    exact fun _ _ => ⟨_, henable, hdisable, List.mem_cons_self⟩
  unfold Host.launch
  rw [narrow_eq (x.toNat_requested link room), pure_bind]
  refine (preserves_observed_write (fun _ _ => id) _ _).before (fun _ h => h) h
    fun _ w hw => ?_
  refine (hbarrier fun _ _ => id).before (fun _ h => h) hw fun _ w hw => ?_
  refine (hstart w hw).bind fun _ w hw => ?_
  refine (hbarrier henabled).before hforget hw fun _ w hw => ?_
  exact (hwords w hw).weaken hforget

/-- From then on its channel is watched. -/
theorem always_launch_watched (oddFrame : Bool) (hroom : room ≤ buffer.length)
    (hquiet : w.env.1.Quiet)
    (hr : w.env.1.answer (x.transaction link buffer room) = r)
    (h : Observed x r earlier (fun _ => True) w.log) :
    ((hostOn clock settings).launch x (x.characteristics link oddFrame)
        (x.requested link room) buffer).Always w
      (fun _ => Watched x r earlier)
      fun w' => Observed x r earlier (fun _ => True) w'.log := by
  have hlog : ((hostOn clock settings).launch x
      (x.characteristics link oddFrame) (x.requested link room) buffer).Always
        w (fun _ w' => Observed x r earlier (Enables x.channel) w'.log)
        fun w' => Observed x r earlier (fun _ => True) w'.log :=
    always_launch_observed oddFrame h
  have hleads : Leads False ((hostOn clock settings).launch x
      (x.characteristics link oddFrame) (x.requested link room) buffer)
        w.env.1 fun _ k' => ∃ s : ChannelState, s.interrupts = 0 ∧
          Beside x.channel (s.answered r)
            (w.env.1.sent (x.transaction link buffer room)) k' :=
    leads_launch (.refl x.channel w.env.1) hroom fun s k' hs hk =>
      ⟨s, hs.trans (hquiet.interrupts _), hr ▸ hk⟩
  refine ⟨fun n _ w' hrun => ?_, hlog.error⟩
  obtain ⟨s, hs, hk⟩ := hleads.of_run rfl hrun
  have hothers := (hquiet.sent (x.transaction link buffer room)).interrupts
  constructor
  · refine (hlog.ok n _ w' hrun).mono fun events henables c => ?_
    by_cases hc : c = x.channel
    · subst hc
      refine .inr ⟨rfl, .inl ⟨?_, henables⟩⟩
      rw [hk.channel_eq, ChannelState.answered, hs]
      exact BitVec.zero_or
    · rw [hk.channel_of_ne hc]
      exact .inl (hothers c)
  · intro hbusy
    rw [hk.channel_eq] at hbusy ⊢
    obtain rfl : r = .silent := of_decide_eq_true hbusy
    rw [ChannelState.answered, hs]
    exact ⟨rfl, rfl⟩

theorem always_attempt_observed (frame : Half) (fits : Bool)
    (hroom : room ≤ buffer.length) (hquiet : w.env.1.Quiet)
    (hr : w.env.1.answer (x.transaction link buffer room) = r)
    (h : Observed x r earlier (fun _ => True) w.log) :
    ((hostOn clock settings).attempt link x buffer room frame fits).Always w
      (fun _ w' => Observed x r earlier (fun _ => True) w'.log)
      fun w' => Observed x r earlier (fun _ => True) w'.log := by
  have hforget : ∀ w' : World Register (Controller × τ),
      Watched x r earlier w' →
        Observed x r earlier (fun _ => True) w'.log :=
    fun _ hw => hw.observed.mono fun _ _ => trivial
  cases fits with
  | false => exact .pure h
  | true =>
    refine (always_launch_watched _ hroom hquiet hr h).bind fun _ w hw => ?_
    have htends : (hostOn clock settings).Tends x.channel
        (Watched x r earlier) := tends_watched
    have hawait := htends.await rfl preserves_drain_watched
      (x.requested link room) buffer room w hw
    exact (hawait.weaken hforget).mono fun _ => hforget

/-- Of whatever an exchange reads in interrupt registers, it has been the cause
itself, if no channel was in use before. -/
theorem always_transfer_observed (hquiet : w.env.1.Quiet) (length : Nat) :
    let answer := w.env.1.answer
      (x.transaction link buffer (min length buffer.length))
    ((hostOn clock settings).transfer link x buffer length).Always w
      (fun _ w' => Observed x answer w.log (fun _ => True) w'.log)
      fun w' => Observed x answer w.log (fun _ => True) w'.log := by
  intro answer
  obtain ⟨room, hroom⟩ : ∃ room, min length buffer.length = room := ⟨_, rfl⟩
  have hle : room ≤ buffer.length := hroom ▸ Nat.min_le_right _ _
  obtain ⟨d, hd⟩ : ∃ d, w.env.1.device = d := ⟨_, rfl⟩
  let P : World Register (Controller × τ) → Prop :=
    Resting d (Observed x answer w.log fun _ => True)
  have hstop : ∀ w', P w' →
      Observed x answer w.log (fun _ => True) w'.log := fun _ hw => hw.log
  have hL : ∀ e log, Blank e → Observed x answer w.log (fun _ => True) log →
      Observed x answer w.log (fun _ => True) (e :: log) :=
    fun e log he hlog =>
      hlog.cons (fun _ c v _ hev => .inl (he c v hev)) fun _ => id
  have htends : (hostOn clock settings).Tends x.channel P :=
    tends_resting hL x.channel
  have hattempt : ∀ frame fits w', P w' →
      ((hostOn clock settings).attempt link x buffer room frame fits).Always w'
        (fun _ w' => Observed x answer w.log (fun _ => True) w'.log)
        fun w' => Observed x answer w.log (fun _ => True) w'.log := by
    intro frame fits w' hw
    refine always_attempt_observed frame fits hle hw.quiet ?_ hw.log
    simp only [Controller.answer, answer, hroom, hw.device, hd]
  have hoffer : ∀ w', P w' →
      ((hostOn clock settings).offer link x buffer room).Always w'
        (fun _ w' => Observed x answer w.log (fun _ => True) w'.log)
        fun w' => Observed x answer w.log (fun _ => True) w'.log := by
    intro w' hw
    refine htends.split.before hstop hw fun _ w' hw => ?_
    refine (htends.load _ (by trivial)).before hstop hw fun frame w' hw => ?_
    refine htends.clear.before hstop hw fun _ w' hw => ?_
    dsimp only
    split
    · exact (htends.awaitTxSpace _).before hstop hw
        fun fits w' hw => hattempt frame fits w' hw
    · exact hattempt frame true w' hw
  rw [Host.transfer_eq, hroom]
  have hstart : P w := ⟨hquiet, hd, [], rfl, trivial, trivial⟩
  refine htends.quiesce.before hstop hstart fun _ w' hw => ?_
  dsimp only
  split
  · exact htends.awaitFrame.before hstop hw fun _ => hoffer
  · exact hoffer w' hw

end Transfer

end Observing

/-! ## Operations -/

/-- The log has come from an earlier one by events that show no interrupts, and
by exchanges that began while no channel was in use. -/
inductive Attended (clock : Clock τ) (settings : Settings)
    (earlier : List (Event Register)) : List (Event Register) → Prop
  | start : Attended clock settings earlier earlier
  | event {log : List (Event Register)} (e : Event Register) :
    Blank e → Attended clock settings earlier log →
    Attended clock settings earlier (e :: log)
  | exchange (link : Link) (x : Exchange) (buffer : List Byte)
      (length patience : Nat) (w : World Register (Controller × τ)) :
    w.env.1.Quiet → Attended clock settings earlier w.log →
    Attended clock settings earlier
      (((hostOn clock settings).transfer link x buffer length).leaves patience
        w).log

/-- No channel is in use, and none was when an exchange began. -/
structure Settled (clock : Clock τ) (settings : Settings)
    (earlier : List (Event Register))
    (w : World Register (Controller × τ)) : Prop where
  quiet : w.env.1.Quiet
  attended : Attended clock settings earlier w.log

section Operation

variable {earlier : List (Event Register)} {w : World Register (Controller × τ)}

/-- An access that starts nothing. -/
theorem Settled.calms (h : Settled clock settings earlier w)
    {e : Event Register} {k' : Controller} (hk : Calms w.env.1 k') (t : τ)
    (he : Blank e) : Settled clock settings earlier ⟨(k', t), e :: w.log⟩ :=
  ⟨h.quiet.calms hk, .event e he h.attended⟩

/-- An exchange may use its channel, but gives it back. -/
theorem maintains_transfer_settled (link : Link) (x : Exchange)
    (buffer : List Byte) (length : Nat) :
    Maintains (Settled clock settings earlier)
      (fun w => Attended clock settings earlier w.log)
      ((hostOn clock settings).transfer link x buffer length) := by
  intro w hw
  have hleaves := fun n =>
    Attended.exchange link x buffer length n w hw.quiet hw.attended
  constructor
  · intro n moved w' hrun
    refine ⟨quiet_of_transfer hw.quiet hrun, ?_⟩
    rw [← Run.leaves_of_ok hrun]
    exact hleaves n
  · intro n e w' hrun
    have hleft : ((hostOn clock settings).transfer link x buffer length).leaves
        n w = w' := by
      rw [Run.leaves, hrun]
    rw [← hleft]
    exact hleaves n

/-- Operations use no channel but by exchanges. -/
theorem conductsAll_quiet :
    (hostOn clock settings).ConductsAll (Settled clock settings earlier)
      fun w => Attended clock settings earlier w.log := by
  have hread : ∀ r, Preserves (Settled clock settings earlier)
      ((hostOn clock settings).core.read r) := by
    intro r w hw
    refine .of_eq (fun _ => rfl) (hw.calms (.read _ r) _ fun c v he => ?_)
    cases he
    exact hw.quiet.interrupts c
  have hport : ∀ v, Preserves (Settled clock settings earlier)
      ((hostOn clock settings).core.write .port v) :=
    fun v w hw => .of_eq (fun _ => rfl) (hw.calms (.writePort _ v) _ nofun)
  have hload : Preserves (Settled clock settings earlier)
      ((hostOn clock settings).core.load .port) :=
    (hread .port).bind fun _ => .pure _
  have hquiesce : ∀ c, Preserves (Settled clock settings earlier)
      ((hostOn clock settings).quiesce c) := by
    intro c w hw
    have htends : (hostOn clock settings).Tends c
        (Resting w.env.1.device (Attended clock settings earlier)) :=
      tends_resting (fun _ _ he h => .event _ he h) c
    have hends := htends.quiesce w ⟨hw.quiet, rfl, hw.attended⟩
    exact (hends.mono fun _ _ h => ⟨h.quiet, h.log⟩).weaken
      fun _ h => ⟨h.quiet, h.log⟩
  have htime : (hostOn clock settings).core.Timeless
      (Settled clock settings earlier) := by
    constructor
    · exact fun w hw =>
        .of_eq (fun _ => rfl) (hw.calms (.of_channels rfl rfl) _ nofun)
    · intro f d w hf hw
      obtain ⟨g, -, rfl⟩ := Option.map_eq_some_iff.1 hf
      exact hw.calms (.of_channels rfl rfl) _ nofun
  exact
    { toTimeless := htime
      stop := fun _ hw => hw.attended
      delay := fun d => (htime.delay d).maintains fun _ hw => hw.attended
      transfer := maintains_transfer_settled
      read := fun r _ => hread r
      write := fun r v hr w hw =>
        .of_eq (fun _ => rfl) (hw.calms (.write _ hr v) _ nofun)
      quiesce := fun c => (hquiesce c).maintains fun _ hw => hw.attended
      readPort := hread .port
      updatePort := fun _ => hload.bind fun _ => hport _
      acknowledgePort := fun _ => hload.bind fun _ => hport _ }

theorem Settled.same (w w' : World Register (Controller × τ))
    (henv : w'.env.1 = w.env.1) (hlog : w'.log = w.log)
    (h : Settled clock settings earlier w) :
    Settled clock settings earlier w' :=
  ⟨henv ▸ h.quiet, hlog ▸ h.attended⟩

/-- An operation returns with no channel in use, and wherever it stops, its
exchanges have begun so. -/
theorem maintains_perform_settled {operation : Operation (Controller × τ)}
    (hp : PowerApart operation) (driver : Driver) :
    Maintains (Settled clock settings earlier)
      (fun w => Attended clock settings earlier w.log)
      (operation.perform (hostOn clock settings) driver) :=
  conductsAll_quiet.perform (hp.preserves Settled.same) driver

end Operation

/-! ## Any number of operations -/

/-- What a core and its device can have come to: any number of operations of
drivers, each of which has returned, with any result, and between them any
changes of what is no business of the channels, such as what the device does. -/
inductive Operated (clock : Clock τ) (settings : Settings) :
    World Register (Controller × τ) → Prop
  | start (w : World Register (Controller × τ)) :
    w.env.1.Quiet → Operated clock settings w
  | change {w : World Register (Controller × τ)} (k : Controller) (t : τ) :
    k.channels = w.env.1.channels → k.pendingOut = w.env.1.pendingOut →
    Operated clock settings w →
    Operated clock settings { w with env := (k, t) }
  | operate {w w' : World Register (Controller × τ)}
      (operation : Operation (Controller × τ)) (driver : Driver)
      (patience : Nat) (r : Reply × Driver) :
    PowerApart operation → Operated clock settings w →
    operation.perform (hostOn clock settings) driver patience w = .ok r w' →
    Operated clock settings w'

theorem Operated.quiet {w : World Register (Controller × τ)}
    (h : Operated clock settings w) : w.env.1.Quiet := by
  induction h with
  | start w hquiet => exact hquiet
  | change k t hchannels hpending _ ih =>
    exact ih.calms (.of_channels hchannels hpending)
  | operate operation driver patience r hp _ hrun ih =>
    exact ((maintains_perform_settled hp driver _ ⟨ih, .start⟩).ok _ _ _
      hrun).quiet

/-- Between operations no channel is enabled or has an interrupt, and no OUT
packet waits for its words.  The next operation, wherever it ends, reads
interrupts only in exchanges that begin while no channel is in use; and such an
exchange reads only what it has caused itself. -/
theorem channels_quiescent {w : World Register (Controller × τ)}
    (h : Operated clock settings w) :
    w.env.1.Quiet ∧
    (∀ operation driver patience, PowerApart operation →
      Attended clock settings w.log
        ((operation.perform (hostOn clock settings) driver).leaves patience
          w).log) ∧
    ∀ (link : Link) (x : Exchange) (buffer : List Byte) (length patience : Nat)
      (u : World Register (Controller × τ)),
      u.env.1.Quiet →
      let answer := u.env.1.answer
        (x.transaction link buffer (min length buffer.length))
      let transfer := (hostOn clock settings).transfer link x buffer length
      ∃ events, (transfer.leaves patience u).log = events ++ u.log ∧
        Observes x answer events := by
  refine ⟨h.quiet, fun operation driver patience hp => ?_, ?_⟩
  · have hends : (operation.perform (hostOn clock settings) driver).Always w
        (fun _ => Settled clock settings w.log)
        fun w' => Attended clock settings w.log w'.log :=
      maintains_perform_settled hp driver w ⟨h.quiet, .start⟩
    exact (hends.mono fun _ _ hw => hw.attended).leaves patience
  · intro link x buffer length patience u hquiet answer transfer
    have hobserved : transfer.Always u
        (fun _ w' => Observed x answer u.log (fun _ => True) w'.log)
        fun w' => Observed x answer u.log (fun _ => True) w'.log :=
      always_transfer_observed hquiet length
    obtain ⟨events, hlog, hobserves, -⟩ := hobserved.leaves patience
    exact ⟨events, hlog, hobserves⟩

/-- A core whose device never says anything. -/
def silentBench : World Register (Controller × Bench.TickingClock) :=
  ⟨({ device := { forced := some .silent } }, {}), []⟩

/-- A packet of two words that nobody answers: its channel is halted, and is
quiet again. -/
theorem unanswered_packet_quiescent :
    let host := hostOn (Bench.TickingClock.clock false)
      { transferTimeout := .zero }
    let x : Exchange :=
      { channel := 5, endpoint := 2, direction := .toDevice, type := .bulk,
        pid := .data1 }
    let stopped : Event Register :=
      .read (.channel 5 .interrupts) ChannelInterrupts.halted.bits
    ∃ moved w',
      host.transfer {} x [1, 2, 3, 4, 5] 5 8 silentBench = .ok moved w' ∧
      moved.result = .error .timeout ∧ w'.env.1.Quiet ∧
      ∃ events, w'.log = events ++ silentBench.log ∧
        Observes x .silent events ∧ stopped ∈ events := by
  intro host x stopped
  have hquiet : silentBench.env.1.Quiet := ⟨by decide, by decide, rfl⟩
  have hreturns : (host.transfer {} x [1, 2, 3, 4, 5] 5).returns 8 silentBench
      (fun moved w' => decide (moved.result = .error .timeout ∧
        stopped ∈ w'.log)) = true := by
    decide +kernel
  obtain ⟨moved, w', hrun, hends⟩ := exists_of_returns hreturns
  obtain ⟨hresult, hstopped⟩ := of_decide_eq_true hends
  have hoperated : Operated (Bench.TickingClock.clock false)
      { transferTimeout := .zero } w' :=
    .operate (.transfer x [1, 2, 3, 4, 5] 5) {} 8 _ (fun _ _ => trivial)
      (.start silentBench hquiet) (Run.bind_eq_ok.2 ⟨_, _, hrun, rfl⟩)
  obtain ⟨hquiet', -, hexchange⟩ := channels_quiescent hoperated
  obtain ⟨events, hlog, hobserves⟩ :=
    hexchange {} x [1, 2, 3, 4, 5] 5 8 silentBench hquiet
  rw [Run.leaves_of_ok hrun] at hlog
  have hevents : w'.log = events := hlog.trans (List.append_nil events)
  refine ⟨moved, w', hrun, hresult, hquiet', events, hlog, hobserves, ?_⟩
  rw [← hevents]
  exact hstopped

end UsbHost.Simulation
