import UsbHost.Bench.Environment
import UsbHost.Proofs.Driver.Reachable
import UsbHost.Proofs.Driver.Withstands
import UsbHost.Proofs.Host.Buffers

/-!
# What exchanges program

The driver keeps an address in eight bits, packet sizes in sixteen and endpoint
numbers in eight; the registers of a channel have seven, eleven and four bits
for them.  In a reachable state nothing is lost on the way: whatever an exchange
with endpoint 0 or with the polled endpoint writes to its channel reads back as
what the driver knows.  This holds on every hardware and wherever the exchange
ends, so it is a statement about the log of a run.

## Main results

* `Link.Sound.exact` — the fields of the channel's registers say what the state
  says.
* `always_transfer_issues` — the two words that an exchange writes to its
  channel, and nothing else programs one.
* `always_transfer_programs` — in a consistent state, these words say what the
  state says.
-/

namespace UsbHost

open Run

variable {σ : Type} {host : Host σ}

/-! ## Events since the beginning -/

/-- Since `earlier` was the log, the events `seen` have happened, and only
events that satisfy `E`. -/
def World.Since (earlier seen : List (Event Register))
    (E : Event Register → Prop) (w : World Register σ) : Prop :=
  ∃ events, w.log = events ++ earlier ∧ seen ⊆ events ∧ ∀ e ∈ events, E e

namespace World.Since

variable {earlier seen : List (Event Register)} {E : Event Register → Prop}
  {w : World Register σ}

theorem refl (w : World Register σ) (E : Event Register → Prop) :
    Since w.log [] E w :=
  ⟨[], rfl, List.nil_subset _, nofun⟩

/-- One more event. -/
theorem cons (h : Since earlier seen E w) {e : Event Register} (he : E e)
    (env : σ) : Since earlier seen E ⟨env, e :: w.log⟩ := by
  obtain ⟨events, hlog, hseen, hall⟩ := h
  refine ⟨e :: events, congrArg (e :: ·) hlog, ?_, ?_⟩
  · exact fun a ha => List.mem_cons_of_mem e (hseen ha)
  · intro a ha
    obtain rfl | ha := List.mem_cons.1 ha
    · exact he
    · exact hall a ha

/-- One more event, which is to be remembered. -/
theorem saw (h : Since earlier seen E w) {e : Event Register} (he : E e)
    (env : σ) : Since earlier (e :: seen) E ⟨env, e :: w.log⟩ := by
  obtain ⟨events, hlog, hseen, hall⟩ := h.cons he env
  obtain ⟨rest, hrest, hsub, -⟩ := h
  have hevents : events = e :: rest := by
    rw [hrest, ← List.cons_append] at hlog
    exact (List.append_cancel_right hlog).symm
  refine ⟨events, hlog, ?_, hall⟩
  rw [hevents]
  exact List.cons_subset_cons e hsub

/-- What has happened since, after what had happened before. -/
theorem trans (h : Since earlier seen E w) {w' : World Register σ}
    (h' : Since w.log [] E w') : Since earlier seen E w' := by
  obtain ⟨events, hlog, hseen, hall⟩ := h
  obtain ⟨events', hlog', -, hall'⟩ := h'
  refine ⟨events' ++ events, ?_, ?_, ?_⟩
  · rw [hlog', hlog, List.append_assoc]
  · exact fun e he => List.mem_append_right events' (hseen he)
  · intro e he
    rcases List.mem_append.1 he with he | he
    · exact hall' e he
    · exact hall e he

theorem mono {E' : Event Register → Prop} (h : Since earlier seen E w)
    (hE : ∀ e, E e → E' e) : Since earlier seen E' w := by
  obtain ⟨events, hlog, hseen, hall⟩ := h
  exact ⟨events, hlog, hseen, fun e he => hE e (hall e he)⟩

theorem forget (h : Since earlier seen E w) : Since earlier [] E w := by
  obtain ⟨events, hlog, -, hall⟩ := h
  exact ⟨events, hlog, List.nil_subset _, hall⟩

end World.Since

/-! ## Exact fields -/

/-- The fields of a channel's characteristics say what the state says of the
device and its endpoint. -/
structure Exchange.Characterizes (x : Exchange) (s : Link)
    (chars : ChannelCharacteristics) : Prop where
  maxPacketSize : (ChannelCharacteristics.maxPacketSize.get chars).toNat =
    (s.packetSizeOf x.endpoint).toNat
  endpoint : (ChannelCharacteristics.endpoint.get chars).toNat =
    x.endpoint.toNat
  deviceAddress : (ChannelCharacteristics.deviceAddress.get chars).toNat =
    s.address.toNat

/-- The endpoints that the driver exchanges packets with: endpoint 0, and the
one that it polls. -/
def Link.Serves (s : Link) (endpoint : Byte) : Prop :=
  endpoint = 0 ∨ ∃ hid, s.hid = some hid ∧ endpoint = hid.number

namespace Link.Sound

variable {s : Link} {endpoint : Byte}

theorem endpoint_le (hs : s.Sound) (hx : s.Serves endpoint) :
    endpoint.toNat ≤ 15 := by
  obtain rfl | ⟨hid, hhid, rfl⟩ := hx
  · decide
  · exact (hs.hid hid hhid).number

theorem packetSize_le (hs : s.Sound) (hx : s.Serves endpoint) :
    (s.packetSizeOf endpoint).toNat ≤ 2047 := by
  have h0 := hs.sized.bounds.2
  unfold Link.packetSizeOf
  split
  · omega
  next hne =>
    obtain rfl | ⟨hid, hhid, rfl⟩ := hx
    · exact absurd rfl hne
    · rw [hhid]
      exact (hs.hid hid hhid).maxPacketSize

theorem address_le (hs : s.Sound) : s.address.toNat ≤ 1 := by
  rcases hs.address with h | h <;> rw [h] <;> decide

/-- In a consistent state no bit is lost on the way to the registers. -/
theorem exact (hs : s.Sound) {x : Exchange} (hx : s.Serves x.endpoint)
    (oddFrame : Bool) :
    x.Characterizes s (ChannelCharacteristics.enable.set true
      (x.characteristics s oddFrame)) := by
  obtain ⟨-, -, haddress, hendpoint, -, -, hsize, -⟩ :=
    characteristics_fields x s oddFrame
  have hsize_le := hs.packetSize_le hx
  have hendpoint_le := hs.endpoint_le hx
  have haddress_le := hs.address_le
  constructor
  · rw [hsize, BitVec.toNat_setWidth]
    omega
  · rw [hendpoint, BitVec.toNat_setWidth]
    omega
  · rw [haddress, BitVec.toNat_setWidth]
    omega

end Link.Sound

/-! ## What an exchange programs -/

/-- An event may program a channel, but only that of the exchange and only with
what the state says.  Characteristics that are written back to halt the channel
program nothing. -/
def Exchange.Programs (x : Exchange) (s : Link) (room : Nat) :
    Event Register → Prop
  | .write (.channel c .characteristics) v =>
    c = x.channel ∧
      (ChannelCharacteristics.disable.get ⟨v⟩ = true ∨ x.Characterizes s ⟨v⟩)
  | .write (.channel c .transferSize) v =>
    c = x.channel ∧
      (TransferSize.bytes.get ⟨v⟩).toNat = x.requested s room
  | _ => True

/-- The channel has been programmed and enabled for the exchange. -/
def Exchange.Programmed (x : Exchange) (s : Link) (room : Nat)
    (events : List (Event Register)) : Prop :=
  ∃ size chars : Word,
    (TransferSize.bytes.get ⟨size⟩).toNat = x.requested s room ∧
    x.Characterizes s ⟨chars⟩ ∧
    ChannelCharacteristics.enable.get ⟨chars⟩ = true ∧
    .write (.channel x.channel .transferSize) size ∈ events ∧
    .write (.channel x.channel .characteristics) chars ∈ events

/-! ## The words of an exchange -/

namespace Exchange

variable (x : Exchange) (s : Link)

/-- What an exchange writes to the transfer size of its channel. -/
def sizeWord (room : Nat) : Word :=
  (x.transferSize (BitVec.ofNat 19 (x.requested s room))).raw

/-- What enables the channel of an exchange. -/
def enableWord (oddFrame : Bool) : Word :=
  (ChannelCharacteristics.enable.set true (x.characteristics s oddFrame)).raw

/-- An event may program a channel, but only that of the exchange and only with
the words of the exchange.  Characteristics that are written back to halt the
channel program nothing. -/
def Issues (room : Nat) : Event Register → Prop
  | .write (.channel c .characteristics) v =>
    c = x.channel ∧ (ChannelCharacteristics.disable.get ⟨v⟩ = true ∨
      ∃ oddFrame, v = x.enableWord s oddFrame)
  | .write (.channel c .transferSize) v =>
    c = x.channel ∧ v = x.sizeWord s room
  | _ => True

/-- Both words of the exchange have been written to its channel. -/
def Issued (room : Nat) (events : List (Event Register)) : Prop :=
  .write (.channel x.channel .transferSize) (x.sizeWord s room) ∈ events ∧
    ∃ oddFrame, .write (.channel x.channel .characteristics)
      (x.enableWord s oddFrame) ∈ events

/-- What an exchange that began with the log `earlier` has issued by its end:
everything, unless it ends as an error of one that sends. -/
def Finishes (room : Nat) (earlier : List (Event Register))
    (moved : Moved TransferError) {σ : Type} (w : World Register σ) : Prop :=
  ∃ seen, w.Since earlier seen (x.Issues s room) ∧
    (x.direction = .toHost ∨ moved.result ≠ .error .error →
      x.Issued s room seen)

end Exchange

section Transfer

variable {s : Link} {x : Exchange} {room : Nat}
  {earlier seen : List (Event Register)}

theorem preserves_since_read (r : Register) :
    Preserves (World.Since earlier seen (x.Issues s room))
      (host.core.read r) :=
  fun w hw => .of_eq (host.core.read_run r · w) (hw.cons (by trivial) _)

theorem preserves_since_write {r : Register} {v : Word}
    (h : x.Issues s room (.write r v)) :
    Preserves (World.Since earlier seen (x.Issues s room))
      (host.core.write r v) :=
  fun w hw => .of_eq (host.core.write_run r v · w) (hw.cons h _)

/-- What is done around the programming of a channel programs nothing. -/
theorem tends_since :
    host.Tends x.channel (World.Since earlier seen (x.Issues s room)) where
  now := fun w hw => .of_eq (host.core.now_run · w) (hw.cons (by trivial) _)
  skip _ _ _ _ hw := hw.cons (by trivial) _
  read r _ := preserves_since_read r
  frame v := preserves_since_write (by trivial)
  split := preserves_since_write (by trivial)
  clear := preserves_since_write (by trivial)
  halt chars :=
    preserves_since_write ⟨rfl, .inl (BitField.get_set _ true chars)⟩

/-- A write that is to be remembered. -/
theorem always_saw_write {r : Register} {v : Word}
    (h : x.Issues s room (.write r v)) {w : World Register σ}
    (hw : w.Since earlier seen (x.Issues s room))
    {H : World Register σ → Prop} :
    (host.core.write r v).Always w
      (fun _ w' =>
        w'.Since earlier (.write r v :: seen) (x.Issues s room)) H :=
  .of_eq (host.core.write_run r v · w) (hw.saw h _)

/-- Launching an exchange issues its words, or is stopped before it has. -/
theorem always_launch_issues (oddFrame : Bool) (buffer : List Byte)
    {w : World Register σ} (hw : w.Since earlier [] (x.Issues s room)) :
    (host.launch x (x.characteristics s oddFrame) (x.requested s room)
        buffer).Always w
      (fun _ w' => ∃ seen, w'.Since earlier seen (x.Issues s room) ∧
        x.Issued s room seen)
      (World.Since earlier [] (x.Issues s room)) := by
  have hsize : x.Issues s room
      (.write (.channel x.channel .transferSize) (x.sizeWord s room)) :=
    ⟨rfl, rfl⟩
  have hchars : x.Issues s room (.write (.channel x.channel .characteristics)
      (x.enableWord s oddFrame)) :=
    ⟨rfl, .inr ⟨oddFrame, rfl⟩⟩
  have hbarrier : ∀ seen, Preserves
      (World.Since earlier seen (x.Issues s room)) host.core.barrier :=
    fun _ w hw => .of_eq (host.core.barrier_run · w) (hw.cons (by trivial) _)
  have hwords : ∀ seen, Preserves
      (World.Since earlier seen (x.Issues s room)) (do
        if x.direction = .toDevice then
          let packet ← Run.slice buffer 0 (x.requested s room)
          (packetWords packet).forM (host.core.store (.fifo x.channel))) := by
    refine fun seen => .ite (fun _ => ?_) fun _ => .pure ()
    refine (Preserves.slice _ _ _).bind fun packet => .forM fun word => ?_
    exact preserves_since_write trivial
  unfold Host.launch
  rw [narrow_eq (x.toNat_requested s room), pure_bind]
  refine (always_saw_write hsize hw).bind fun _ w hw => ?_
  refine (hbarrier _).before (fun _ h => h.forget) hw fun _ w hw => ?_
  refine (always_saw_write hchars hw).bind fun _ w hw => ?_
  refine (hbarrier _).before (fun _ h => h.forget) hw fun _ w hw => ?_
  refine ((hwords _ w hw).weaken fun _ h => h.forget).mono fun _ w hw => ?_
  exact ⟨_, hw, List.mem_cons_of_mem _ List.mem_cons_self, oddFrame,
    List.mem_cons_self⟩

theorem always_attempt_issues (buffer : List Byte) (frame : Half) (fits : Bool)
    (hfits : x.direction = .toHost → fits = true) {w : World Register σ}
    (hw : w.Since earlier [] (x.Issues s room)) :
    (host.attempt s x buffer room frame fits).Always w
      (fun moved w' => x.Finishes s room earlier moved w')
      (World.Since earlier [] (x.Issues s room)) := by
  cases fits with
  | false =>
    refine .pure ⟨[], hw, fun h => ?_⟩
    rcases h with hin | herror
    · exact absurd (hfits hin) Bool.false_ne_true
    · exact absurd rfl herror
  | true =>
    refine (always_launch_issues _ buffer hw).bind ?_
    rintro _ w' ⟨seen, hw', hissued⟩
    have htends : host.Tends x.channel
        (World.Since earlier seen (x.Issues s room)) := tends_since
    have hdrain : ∀ room', Preserves
        (World.Since earlier seen (x.Issues s room))
        (host.drain x.channel room') :=
      Host.preserves_drain (fun r _ => preserves_since_read r) x.channel
    refine Always.mono ?_ fun _ _ hw => ⟨seen, hw, fun _ => hissued⟩
    exact (htends.await rfl hdrain _ buffer room w' hw').weaken
      fun _ h => h.forget

/-- However an exchange ends and wherever it stops, it has programmed nothing
but its own channel, and that with just its own words. -/
theorem always_transfer_issues (buffer : List Byte) (length : Nat)
    (w : World Register σ) :
    let room := min length buffer.length
    (host.transfer s x buffer length).Always w
      (fun moved w' => x.Finishes s room w.log moved w')
      (World.Since w.log [] (x.Issues s room)) := by
  intro room
  have htends : host.Tends x.channel
      (World.Since w.log [] (x.Issues s room)) := tends_since
  have hoffer : ∀ w', w'.Since w.log [] (x.Issues s room) →
      (host.offer s x buffer room).Always w'
        (fun moved w' => x.Finishes s room w.log moved w')
        (World.Since w.log [] (x.Issues s room)) := by
    intro w' hw
    refine htends.split.before (fun _ h => h) hw ?_
    intro _ w' hw
    refine (htends.load _ (by trivial)).before (fun _ h => h) hw ?_
    intro frame w' hw
    refine htends.clear.before (fun _ h => h) hw ?_
    intro _ w' hw
    dsimp only
    split
    next hsends =>
      refine (htends.awaitTxSpace _).before (fun _ h => h) hw fun fits w' hw =>
        always_attempt_issues buffer frame fits (fun hin => ?_) hw
      rw [hin] at hsends
      exact nomatch hsends.1
    next => exact always_attempt_issues buffer frame true (fun _ => rfl) hw
  rw [host.transfer_eq]
  refine htends.quiesce.before (fun _ h => h) (.refl w _) ?_
  intro _ w' hw
  dsimp only
  split
  · exact htends.awaitFrame.before (fun _ h => h) hw fun _ => hoffer
  · exact hoffer w' hw

end Transfer

/-! ## In consistent states -/

section Sound

variable {s : Link} {x : Exchange} {room : Nat}

/-- In a consistent state the words of an exchange say what the state says. -/
theorem Exchange.Issues.programs (hs : s.Sound) (hx : s.Serves x.endpoint)
    {e : Event Register} (h : x.Issues s room e) : x.Programs s room e := by
  unfold Issues at h
  split at h
  · obtain ⟨hc, hdisable | ⟨oddFrame, rfl⟩⟩ := h
    · exact ⟨hc, .inl hdisable⟩
    · exact ⟨hc, .inr (hs.exact hx oddFrame)⟩
  · obtain ⟨hc, rfl⟩ := h
    exact ⟨hc, (transferSize_fields x (x.toNat_requested s room)).2⟩
  next hchars hsize =>
    unfold Programs
    split
    · exact absurd rfl (hchars _ _)
    · exact absurd rfl (hsize _ _)
    · trivial

theorem Exchange.Issued.programmed (hs : s.Sound) (hx : s.Serves x.endpoint)
    {events : List (Event Register)} (h : x.Issued s room events) :
    x.Programmed s room events := by
  obtain ⟨hsize, oddFrame, hchars⟩ := h
  exact ⟨_, _, (transferSize_fields x (x.toNat_requested s room)).2,
    hs.exact hx oddFrame, (characteristics_fields x s oddFrame).1, hsize,
    hchars⟩

/-- What an exchange that began with the log `earlier` has programmed by its
end: everything, unless it ends as an error. -/
def Exchange.Ends (x : Exchange) (s : Link) (room : Nat)
    (earlier : List (Event Register)) (moved : Moved TransferError)
    (w : World Register σ) : Prop :=
  ∃ seen, w.Since earlier seen (x.Programs s room) ∧
    (moved.result ≠ .error .error → x.Programmed s room seen)

/-- However an exchange ends and wherever it stops, it has programmed nothing
but its own channel, and that with just what the state says. -/
theorem always_transfer_programs (hs : s.Sound) (hx : s.Serves x.endpoint)
    (buffer : List Byte) (length : Nat) (w : World Register σ) :
    let room := min length buffer.length
    (host.transfer s x buffer length).Always w (x.Ends s room w.log)
      (World.Since w.log [] (x.Programs s room)) := by
  intro room
  have h : (host.transfer s x buffer length).Always w
      (fun moved w' => x.Finishes s room w.log moved w')
      (World.Since w.log [] (x.Issues s room)) :=
    always_transfer_issues buffer length w
  refine (h.weaken fun w' hw => ?_).mono fun moved w' hw => ?_
  · exact hw.mono fun _ he => he.programs hs hx
  · obtain ⟨seen, hsince, hissued⟩ := hw
    refine ⟨seen, hsince.mono fun _ he => he.programs hs hx, fun herror => ?_⟩
    exact (hissued (.inr herror)).programmed hs hx

end Sound

/-! ## In reachable states -/

/-- Whatever has been asked of the driver before and on whatever hardware, what
it knows is consistent, and an exchange with endpoint 0 or with the polled
endpoint programs its channel with exactly that, wherever it ends. -/
theorem programmed_as_known {s : Link} (hs : s.Reachable) :
    s.Sound ∧
      ∀ {σ : Type} (host : Host σ) (x : Exchange) (buffer : List Byte)
        (length patience : Nat) (w : World Register σ),
        s.Serves x.endpoint →
          let room := min length buffer.length
          let transfer := host.transfer s x buffer length
          ∃ events, (transfer.leaves patience w).log = events ++ w.log ∧
            (∀ e ∈ events, x.Programs s room e) ∧
            ∀ moved w', transfer patience w = .ok moved w' →
              moved.result ≠ .error .error → x.Programmed s room events := by
  refine ⟨hs.sound, fun {σ} host x buffer length patience w hx => ?_⟩
  let room := min length buffer.length
  have h : (host.transfer s x buffer length).Always w (x.Ends s room w.log)
      (World.Since w.log [] (x.Programs s room)) :=
    always_transfer_programs hs.sound hx buffer length w
  dsimp only
  cases hr : host.transfer s x buffer length patience w with
  | ok moved w' =>
    obtain ⟨seen, ⟨events, hlog, hsub, hall⟩, hprogrammed⟩ :=
      h.ok patience moved w' hr
    rw [leaves_of_ok hr]
    refine ⟨events, hlog, hall, ?_⟩
    intro moved' w'' h' hmoved
    cases h'
    obtain ⟨size, chars, hsize, hchars, henable, h1, h2⟩ := hprogrammed hmoved
    exact ⟨size, chars, hsize, hchars, henable, hsub h1, hsub h2⟩
  | error e w' =>
    obtain ⟨events, hlog, -, hall⟩ := h.error patience e w' hr
    refine ⟨events, ?_, hall, nofun⟩
    rw [leaves, hr, hlog]

/-- The test bench as hardware of the driver. -/
def benchHost : Host (Bench.Environment × Bench.TickingClock) :=
  ⟨Bench.machine false, {}⟩

/-- A bench on which the driver has brought up a gamepad. -/
def startedBench : World Register (Bench.Environment × Bench.TickingClock) :=
  (Driver.performAll benchHost {}
    [.start PowerSwitch.alwaysOn (.ofMillis 100)]).leaves 20 ⟨({}, {}), []⟩

/-- What the driver knows then. -/
def gamepadState : Link :=
  { address := 1, ep0MaxPacket := 64, hid := some ⟨1, 32, 0⟩,
    enumerated := true }

theorem gamepadState_reachable : gamepadState.Reachable := by
  have hrun : (Driver.performAll benchHost {}
      [.start PowerSwitch.alwaysOn (.ofMillis 100)]).returns 20 ⟨({}, {}), []⟩
        (fun r _ => decide (r.2.state = gamepadState)) = true := by
    decide +kernel
  obtain ⟨⟨replies, driver⟩, w', hrun, hstate⟩ := exists_of_returns hrun
  exact ⟨_, benchHost, _, 20, _, w', replies, driver, hrun,
    of_decide_eq_true hstate⟩

/-- A poll of the gamepad, which has nothing to report, programs channel 1 for
a packet of 32 bytes from endpoint 1 at address 1. -/
theorem gamepad_poll_programmed :
    let x := Host.pollExchange gamepadState ⟨1, 32, 0⟩
    let transfer := benchHost.transfer gamepadState x (List.replicate 8 0) 8
    ∃ events, (transfer.leaves 20 startedBench).log =
        events ++ startedBench.log ∧
      x.Programmed gamepadState 8 events ∧ x.requested gamepadState 8 = 32 := by
  intro x transfer
  obtain ⟨-, hknown⟩ := programmed_as_known gamepadState_reachable
  obtain ⟨events, hlog, -, hprogrammed⟩ := hknown benchHost x
    (List.replicate 8 0) 8 20 startedBench (.inr ⟨⟨1, 32, 0⟩, rfl, rfl⟩)
  have hreturns : transfer.returns 20 startedBench
      (fun moved _ => decide (moved.result = .error .nak)) = true := by
    decide +kernel
  obtain ⟨moved, w', hrun, hresult⟩ := exists_of_returns hreturns
  have hnak : moved.result ≠ .error .error := by
    rw [of_decide_eq_true hresult]
    decide
  exact ⟨events, hlog, hprogrammed moved w' hrun hnak, by decide⟩

end UsbHost
