import UsbHost.Host.ControlTransfer
import UsbHost.Proofs.Host.Buffers

/-!
# The protocol of control transfers

Which packets a control transfer exchanges, in which order, how often each of
them is attempted, and what becomes of the transfer when one of them fails.  The
protocol is a language of steps, stated without reference to any hardware; on
every hardware a control transfer takes just the steps of a word of it.

## Main results

* `Offered` — a packet and its repetitions.
* `DataStage` — the packets of a data stage.
* `controlTransfer` — whole transfers.
* `controlTransfer_count_le` — what a transfer can have moved.
* `Receives` — what becomes of the buffer of a transfer.
* `yields_control_received` — transfers on any hardware, with their buffers.
* `control_follows_protocol` — what a control transfer does on any hardware.
-/

namespace UsbHost.Protocol

/-! ## Steps -/

/-- A packet on endpoint 0. -/
structure Packet where
  direction : Direction
  pid : Pid
  /-- The bytes to be sent, or those in whose place others are received. -/
  bytes : List Byte

/-- What happens in the course of a control transfer. -/
inductive Step where
  | attempt (p : Packet) (moved : Moved TransferError)
  /-- The delay before another attempt. -/
  | pause

section Taking

variable {σ : Type} (host : Host σ) (s : Link)

/-- The step leads from one world to another. -/
def Step.Takes : Step → World Register σ → World Register σ → Prop
  | .attempt p moved, w, w' => ∃ patience,
    host.transfer s (.control p.direction p.pid) p.bytes p.bytes.length
      patience w = .ok moved w'
  | .pause, w, w' => ∃ patience,
    host.core.delay host.settings.nakRetryDelay patience w = .ok () w'

/-- The steps lead from one world to another, with nothing in between. -/
inductive Taken : List Step → World Register σ → World Register σ → Prop where
  | nil (w : World Register σ) : Taken [] w w
  | cons {step : Step} {rest : List Step} {w v w' : World Register σ} :
    step.Takes host s w v → Taken rest v w' → Taken (step :: rest) w w'

variable {host s}

theorem Taken.append {first rest : List Step} {w v w' : World Register σ}
    (h : Taken host s first w v) (h' : Taken host s rest v w') :
    Taken host s (first ++ rest) w w' := by
  induction h with
  | nil w => exact h'
  | cons hstep _ ih => exact .cons hstep (ih h')

theorem Taken.single {step : Step} {w w' : World Register σ}
    (h : step.Takes host s w w') : Taken host s [step] w w' :=
  .cons h (.nil w')

end Taking

/-! ## Repetitions -/

/-- A packet that is refused a number of times, with a pause after each
refusal, before an attempt at it comes out as `moved`. -/
def attempts (p : Packet) (moved : Moved TransferError) : Nat → List Step
  | 0 => [.attempt p moved]
  | refusals + 1 =>
    .attempt p ⟨.error .nak, p.bytes⟩ :: .pause :: attempts p moved refusals

/-- How a packet is offered if at most `limit` attempts are allowed: again after
each refusal, until an attempt is not refused or no more are allowed.  A packet
that cannot be attempted at all counts as refused. -/
inductive Offered (p : Packet) :
    (limit : Nat) → List Step → Moved TransferError → Prop where
  | never : Offered p 0 [] ⟨.error .nak, p.bytes⟩
  | ended {limit : Nat} (refusals : Nat) (moved : Moved TransferError) :
    refusals < limit →
    (moved.result = .error .nak → refusals + 1 = limit) →
    Offered p limit (attempts p moved refusals) moved

/-- An attempt that is not refused is the only one. -/
theorem Offered.once {p : Packet} {left : Nat} {moved : Moved TransferError}
    (h : moved.result ≠ .error .nak) :
    Offered p (left + 1) [.attempt p moved] moved :=
  .ended 0 moved (Nat.succ_pos left) fun hnak => absurd hnak h

/-- Another refusal before what was offered in any case. -/
theorem Offered.again {p : Packet} {limit : Nat} {steps : List Step}
    {moved : Moved TransferError} (h : Offered p limit steps moved)
    (hlimit : 0 < limit) :
    Offered p (limit + 1)
      (.attempt p ⟨.error .nak, p.bytes⟩ :: .pause :: steps) moved := by
  cases h with
  | never => exact absurd hlimit (Nat.lt_irrefl 0)
  | ended refusals moved hlt hlast =>
    refine .ended (refusals + 1) moved (Nat.succ_lt_succ hlt) ?_
    intro hnak
    rw [hlast hnak]

/-! ## Stages -/

/-- The ways in which a transfer, or a part of it, can go: the steps it takes
and the result they lead to. -/
abbrev Course := List Step → Except UsbError Nat → Prop

/-- One part after another.  A failure ends the whole, and nothing follows
it. -/
inductive Course.andThen (first : Course) (next : Nat → Course) : Course where
  | failed {steps : List Step} {e : UsbError} :
    first steps (.error e) → andThen first next steps (.error e)
  | followed {steps rest : List Step} {count : Nat}
      {result : Except UsbError Nat} :
    first steps (.ok count) → next count rest result →
    andThen first next (steps ++ rest) result

/-- Nothing is done, and the result is known. -/
inductive finished (count : Nat) : Course where
  | intro : finished count [] (.ok count)

/-- A packet that belongs to the given stage. -/
inductive packetStage (limit : Nat) (stage : Stage) (p : Packet) :
    Course where
  | intro {steps : List Step} {moved : Moved TransferError} :
    Offered p limit steps moved →
    packetStage limit stage p steps (moved.result.mapError (.transfer stage))

/-- The identifiers of data packets alternate, beginning with DATA1. -/
def dataPid (k : Nat) : Pid := if k % 2 = 0 then .data1 else .data0

/-- The packet of a data stage of `total` bytes after `k` packets, of at most
`size` bytes each, that have moved `moved` bytes. -/
def dataPacket (direction : Direction) (total size : Nat) (buffer : List Byte)
    (k moved : Nat) : Packet :=
  { direction
    pid := dataPid k
    bytes := (buffer.drop moved).take (min (total - moved) size) }

/-- A packet of a data stage has all the bytes that are left, or as many as go
into a packet. -/
theorem length_dataPacket {direction : Direction} {total size : Nat}
    {buffer : List Byte} (h : total ≤ buffer.length) (k moved : Nat) :
    (dataPacket direction total size buffer k moved).bytes.length =
      min (total - moved) size := by
  unfold dataPacket
  rw [List.length_take, List.length_drop]
  omega

/-- How a data stage goes on after `k` packets that have moved `moved` bytes.
It ends when all bytes have moved or an IN packet was short; a packet that is
followed by another one has moved in full. -/
inductive DataStage (limit : Nat) (direction : Direction) (total size : Nat)
    (buffer : List Byte) : (k moved : Nat) → Course where
  | complete {k moved : Nat} : total ≤ moved →
    DataStage limit direction total size buffer k moved [] (.ok moved)
  | failed {k moved : Nat} {steps : List Step} {e : UsbError} :
    moved < total →
    packetStage limit .data (dataPacket direction total size buffer k moved)
      steps (.error e) →
    DataStage limit direction total size buffer k moved steps (.error e)
  | short {k moved count : Nat} {steps : List Step} :
    moved < total → direction = .toHost → count < size →
    count ≤ (dataPacket direction total size buffer k moved).bytes.length →
    packetStage limit .data (dataPacket direction total size buffer k moved)
      steps (.ok count) →
    DataStage limit direction total size buffer k moved steps
      (.ok (moved + count))
  | more {k moved count : Nat} {steps rest : List Step}
      {result : Except UsbError Nat} :
    moved < total → (direction = .toHost → size ≤ count) →
    count = (dataPacket direction total size buffer k moved).bytes.length →
    packetStage limit .data (dataPacket direction total size buffer k moved)
      steps (.ok count) →
    DataStage limit direction total size buffer (k + 1) (moved + count) rest
      result →
    DataStage limit direction total size buffer k moved (steps ++ rest) result

/-- The handshake at the end of a transfer that has moved `count` bytes. -/
def statusStage (limit : Nat) (direction : Direction) (count : Nat) : Course :=
  (packetStage limit .status ⟨direction, .data1, []⟩).andThen
    fun _ => finished count

/-- Control transfers.  The data stage is left out if the request announces no
data or there is no buffer for it. -/
def controlTransfer (limit size : Nat) (setup : SetupPacket)
    (buffer : List Byte) : Course :=
  let length := (SetupPacket.length.get setup).toNat
  let direction := SetupPacket.direction.get setup
  (packetStage limit .setup ⟨.toDevice, .setup, setup.bytes⟩).andThen fun _ =>
    if 0 < length ∧ buffer ≠ [] then
      (DataStage limit direction (min length buffer.length) size buffer
        0 0).andThen fun count => statusStage limit direction.reversed count
    else statusStage limit .toHost 0

/-! ## What is moved -/

section Counts

variable {limit size total : Nat} {direction : Direction} {buffer : List Byte}

/-- A data stage does not move more than it was to move. -/
theorem DataStage.count_le {k moved : Nat} {steps : List Step}
    {result : Except UsbError Nat}
    (h : DataStage limit direction total size buffer k moved steps result)
    (htotal : total ≤ buffer.length) (hmoved : moved ≤ total) :
    ∀ count, result = .ok count → count ≤ total := by
  induction h with
  | complete => 
    rintro _ ⟨⟩
    exact hmoved
  | failed => exact fun _ => nofun
  | short hmore hd hshort hcount hpacket =>
    rintro _ ⟨⟩
    rw [length_dataPacket htotal] at hcount
    omega
  | more hmore hlarge hcount hpacket hrest ih =>
    rw [length_dataPacket htotal] at hcount
    exact ih (by omega)

/-- A status stage reports what has been moved before it. -/
theorem statusStage_count {moved count : Nat} {steps : List Step}
    (h : statusStage limit direction moved steps (.ok count)) :
    count = moved := by
  cases h with
  | followed hpacket hfinished =>
    cases hfinished
    rfl

/-- A control transfer does not move more than it announces, nor more than its
buffer has room for. -/
theorem controlTransfer_count_le {setup : SetupPacket} {steps : List Step}
    {count : Nat}
    (h : controlTransfer limit size setup buffer steps (.ok count)) :
    count ≤ min (SetupPacket.length.get setup).toNat buffer.length := by
  cases h with
  | followed hsetup hrest =>
    split at hrest
    · cases hrest with
      | followed hdata hstatus =>
        rw [statusStage_count hstatus]
        exact hdata.count_le (Nat.min_le_right _ _) (Nat.zero_le _) _ rfl
    · rw [statusStage_count hrest]
      exact Nat.zero_le _

end Counts

/-! ## What is received -/

/-- The bytes that a step has brought: those of an IN packet that succeeded. -/
def Step.received : Step → List Byte
  | .attempt ⟨.toHost, _, _⟩ ⟨.ok count, bytes⟩ => bytes.take count
  | _ => []

/-- The bytes that steps have brought, one after the other. -/
def received (steps : List Step) : List Byte := steps.flatMap Step.received

theorem received_append (first rest : List Step) :
    received (first ++ rest) = received first ++ received rest :=
  List.flatMap_append

theorem received_single (step : Step) : received [step] = step.received :=
  List.append_nil _

theorem Step.received_error (p : Packet) (e : TransferError)
    (bytes : List Byte) :
    (Step.attempt p ⟨.error e, bytes⟩).received = [] := by
  obtain ⟨direction, pid, sent⟩ := p
  cases direction <;> rfl

theorem Step.received_toDevice {p : Packet} (hp : p.direction = .toDevice)
    (moved : Moved TransferError) : (Step.attempt p moved).received = [] := by
  obtain ⟨direction, pid, sent⟩ := p
  cases hp
  rfl

theorem Step.received_toHost {p : Packet} (hp : p.direction = .toHost)
    (count : Nat) (bytes : List Byte) :
    (Step.attempt p ⟨.ok count, bytes⟩).received = bytes.take count := by
  obtain ⟨direction, pid, sent⟩ := p
  cases hp
  rfl

/-- Only the last attempt at a packet can have brought anything. -/
theorem received_attempts (p : Packet) (moved : Moved TransferError)
    (refusals : Nat) :
    received (attempts p moved refusals) =
      (Step.attempt p moved).received := by
  induction refusals with
  | zero => exact received_single _
  | succ refusals ih =>
    calc received (attempts p moved (refusals + 1))
        = (Step.attempt p ⟨.error .nak, p.bytes⟩).received ++
            received (attempts p moved refusals) := rfl
      _ = (Step.attempt p moved).received := by
          rw [Step.received_error, ih, List.nil_append]

theorem Offered.received_eq {p : Packet} {limit : Nat} {steps : List Step}
    {moved : Moved TransferError} (h : Offered p limit steps moved) :
    received steps = (Step.attempt p moved).received := by
  cases h with
  | never => exact (Step.received_error p .nak p.bytes).symm
  | ended refusals moved => exact received_attempts p moved refusals

/-- How steps that were to move at most `total` bytes in a direction have left a
buffer.  What they have received stands at its front, nothing behind that has
been touched, and if they succeed, that is what they report. -/
structure Receives (direction : Direction) (total : Nat) (buffer : List Byte)
    (steps : List Step) (r : Moved UsbError) : Prop where
  buffer_eq :
    r.buffer = received steps ++ buffer.drop (received steps).length
  fits : (received steps).length ≤ total
  counted : direction = .toHost → ∀ count, r.result = .ok count →
    (received steps).length = count
  sent : direction = .toDevice → received steps = []

/-- Replacing the front of a part of a buffer replaces it in the whole. -/
theorem splice_eq {current packet : List Byte} {m size : Nat}
    (hsize : m + size ≤ current.length) (hpacket : packet.length ≤ size) :
    current.take m ++
        (packet ++ ((current.take (m + size)).drop m).drop packet.length) ++
        current.drop (m + size) =
      current.take m ++ packet ++ current.drop (m + packet.length) := by
  have hfront : m + packet.length ≤ (current.take (m + size)).length := by
    rw [List.length_take]
    omega
  have hrest : (current.take (m + size)).drop (m + packet.length) ++
      current.drop (m + size) = current.drop (m + packet.length) := by
    rw [← List.drop_append_of_le_length hfront, List.take_append_drop]
  rw [List.drop_drop, List.append_assoc, List.append_assoc, hrest,
    List.append_assoc]

namespace Receives

variable {direction : Direction} {total m size : Nat}
  {buffer current : List Byte} {steps steps' : List Step} {r : Moved UsbError}

/-- Where nothing has been received, the buffer is as it was. -/
theorem nothing (hsteps : received steps = []) (hbuffer : r.buffer = buffer)
    (hcount : direction = .toHost → ∀ count, r.result = .ok count →
      count = 0) :
    Receives direction total buffer steps r where
  buffer_eq := by
    rw [hsteps]
    exact hbuffer
  fits := by
    rw [hsteps]
    exact Nat.zero_le total
  counted hd count hr := by
    rw [hsteps, hcount hd count hr]
    rfl
  sent _ := hsteps

theorem length_eq (h : Receives direction total buffer steps r)
    (htotal : total ≤ buffer.length) : r.buffer.length = buffer.length := by
  have hfits := h.fits
  rw [h.buffer_eq, List.length_append, List.length_drop]
  omega

/-- Nothing behind what is reported to have moved has been touched. -/
theorem rest (h : Receives direction total buffer steps r) {count : Nat}
    (hr : r.result = .ok count) :
    r.buffer.drop count = buffer.drop count := by
  rw [h.buffer_eq]
  cases hd : direction with
  | toHost => rw [← h.counted hd count hr, List.drop_left]
  | toDevice =>
    rw [h.sent hd]
    rfl

/-- A packet has left its bytes as its last attempt has. -/
theorem packet {p : Packet} {limit requested : Nat} {stage : Stage}
    {moved : Moved TransferError} (hoffered : Offered p limit steps moved)
    (h : (Exchange.control p.direction p.pid).Leaves requested p.bytes.length
      p.bytes moved) :
    Receives p.direction p.bytes.length p.bytes steps
      ⟨moved.result.mapError (.transfer stage), moved.buffer⟩ := by
  have hreceived := hoffered.received_eq
  obtain ⟨result, bytes⟩ := moved
  cases result with
  | error e =>
    rw [Step.received_error] at hreceived
    exact nothing hreceived h fun _ _ => nofun
  | ok count =>
    cases hp : p.direction with
    | toDevice =>
      rw [Step.received_toDevice hp] at hreceived
      rw [hp] at h
      exact nothing hreceived h.2 nofun
    | toHost =>
      rw [Step.received_toHost hp] at hreceived
      rw [hp] at h
      obtain ⟨hcount, front, hlength, rfl⟩ := h
      rw [List.take_left' hlength] at hreceived
      refine ⟨?_, ?_, fun _ n hn => ?_, nofun⟩
      · rw [hreceived, hlength]
      · rw [hreceived, hlength]
        exact hcount
      · cases hn
        rw [hreceived, hlength]

/-- A packet in the middle of a buffer, after what has been moved before it. -/
theorem extend
    (h : Receives direction total buffer steps ⟨.ok m, current⟩)
    {chunk : List Byte} (hchunk : chunk = (current.take (m + size)).drop m)
    {packet : Moved UsbError}
    (hpacket : Receives direction size chunk steps' packet)
    (hsize : m + size ≤ current.length) (htotal : m + size ≤ total)
    {result : Except UsbError Nat}
    (hresult : direction = .toHost → ∀ count, result = .ok count →
      ∃ n, packet.result = .ok n ∧ count = m + n) :
    Receives direction total buffer (steps ++ steps')
      ⟨result, current.take m ++ packet.buffer ++ current.drop (m + size)⟩ := by
  subst hchunk
  have hfits := hpacket.fits
  have hafter : current.take m ++ packet.buffer ++ current.drop (m + size) =
      current.take m ++ received steps' ++
        current.drop (m + (received steps').length) := by
    rw [hpacket.buffer_eq]
    exact splice_eq hsize hfits
  cases hd : direction with
  | toHost =>
    have hlength : (received steps).length = m := h.counted hd m rfl
    have hfront : current.take m = received steps := by
      rw [show current = _ from h.buffer_eq, List.take_left' hlength]
    have hrest : current.drop (m + (received steps').length) =
        buffer.drop (m + (received steps').length) := by
      have hdrop : current.drop m = buffer.drop m := h.rest rfl
      rw [← List.drop_drop, hdrop, List.drop_drop]
    refine ⟨?_, ?_, fun _ count hr => ?_, nofun⟩
    · rw [hafter, hfront, hrest, received_append, List.length_append, hlength]
    · rw [received_append, List.length_append, hlength]
      omega
    · obtain ⟨n, hn, rfl⟩ := hresult hd count hr
      rw [received_append, List.length_append, hlength, hpacket.counted hd n hn]
  | toDevice =>
    have hnone : received (steps ++ steps') = [] := by
      rw [received_append, h.sent hd, hpacket.sent hd]
      rfl
    refine nothing hnone ?_ nofun
    have hcurrent : current = buffer := by
      have hbuffer := h.buffer_eq
      rw [h.sent hd] at hbuffer
      exact hbuffer
    rw [hafter, hpacket.sent hd, List.append_nil, List.length_nil, Nat.add_zero,
      List.take_append_drop, hcurrent]

/-- Steps before it that have brought nothing change nothing. -/
theorem after (h : Receives direction total buffer steps r)
    (hsteps : received steps' = []) :
    Receives direction total buffer (steps' ++ steps) r := by
  have hreceived : received (steps' ++ steps) = received steps := by
    rw [received_append, hsteps, List.nil_append]
  obtain ⟨hbuffer, hfits, hcounted, hsent⟩ := h
  rw [← hreceived] at hbuffer hfits hcounted hsent
  exact ⟨hbuffer, hfits, hcounted, hsent⟩

/-- Nor do such steps after it that report the same if they succeed. -/
theorem before {count : Nat}
    (h : Receives direction total buffer steps ⟨.ok count, current⟩)
    (hsteps : received steps' = []) (hbuffer : r.buffer = current)
    (hcount : ∀ n, r.result = .ok n → n = count) :
    Receives direction total buffer (steps ++ steps') r := by
  have hreceived : received (steps ++ steps') = received steps := by
    rw [received_append, hsteps, List.append_nil]
  obtain ⟨hcurrent, hfits, hcounted, hsent⟩ := h
  rw [← hreceived] at hcurrent hfits hcounted hsent
  refine ⟨hbuffer.trans hcurrent, hfits, fun hd n hn => ?_, hsent⟩
  rw [hcount n hn]
  exact hcounted hd count rfl

end Receives

/-! ## The driver -/

variable {σ : Type} {host : Host σ} {s : Link}

/-- An attempt at a packet is a step, and leaves its bytes as an exchange
does. -/
theorem yields_attempt (p : Packet) (w : World Register σ) :
    (host.transfer s (.control p.direction p.pid) p.bytes
        p.bytes.length).Yields False w fun moved w' =>
      (Step.attempt p moved).Takes host s w w' ∧
      (Exchange.control p.direction p.pid).Leaves
        ((Exchange.control p.direction p.pid).requested s p.bytes.length)
        p.bytes.length p.bytes moved := by
  have htaken : (host.transfer s (.control p.direction p.pid) p.bytes
      p.bytes.length).Yields False w fun moved w' =>
        (Step.attempt p moved).Takes host s w w' :=
    ⟨fun n _ _ hr => ⟨n, hr⟩, False.elim⟩
  have hleaves := yields_transfer host s (.control p.direction p.pid) p.bytes
    p.bytes.length w
  rw [Nat.min_self] at hleaves
  exact htaken.and hleaves

theorem yields_pause (s : Link) (w : World Register σ) :
    (host.core.delay host.settings.nakRetryDelay).Yields False w
      fun _ w' => Step.pause.Takes host s w w' :=
  ⟨fun n _ _ hr => ⟨n, hr⟩, False.elim⟩

/-- A packet is offered for as long as it is refused and attempts are left. -/
theorem yields_persist (stage : Stage) (p : Packet) (limit : Nat)
    (w : World Register σ) :
    (host.persist stage
        (fun b => host.transfer s (.control p.direction p.pid) b b.length)
        limit p.bytes).Yields False w fun r w' =>
      ∃ steps moved, Offered p limit steps moved ∧
        Taken host s steps w w' ∧
        (Exchange.control p.direction p.pid).Leaves
          ((Exchange.control p.direction p.pid).requested s p.bytes.length)
          p.bytes.length p.bytes moved ∧
        r = ⟨moved.result.mapError (.transfer stage), moved.buffer⟩ := by
  induction limit generalizing w with
  | zero => exact .pure ⟨[], _, .never, .nil w, rfl, rfl⟩
  | succ left ih =>
    refine (yields_attempt p w).bind fun moved v h => ?_
    obtain ⟨htakes, hleaves⟩ := h
    obtain ⟨result, bytes⟩ := moved
    by_cases hnak : result = .error .nak
    · subst hnak
      obtain rfl : bytes = p.bytes := hleaves
      dsimp only
      by_cases hleft : 0 < left
      · rw [if_pos hleft]
        refine (yields_pause s v).bind fun _ v' hpause => ?_
        refine (ih v').mono fun r w' h => ?_
        obtain ⟨steps, moved, hoffered, htaken, hrest⟩ := h
        exact ⟨_, moved, hoffered.again hleft,
          .cons htakes (.cons hpause htaken), hrest⟩
      · obtain rfl : left = 0 := Nat.eq_zero_of_not_pos hleft
        exact .pure ⟨_, _, .ended 0 _ Nat.one_pos fun _ => rfl, .single htakes,
          rfl, rfl⟩
    · have honce : Offered p (left + 1) _ ⟨result, bytes⟩ := .once hnak
      cases result with
      | ok count => exact .pure ⟨_, _, honce, .single htakes, hleaves, rfl⟩
      | error e =>
        cases e with
        | nak => exact absurd rfl hnak
        | _ => exact .pure ⟨_, _, honce, .single htakes, hleaves, rfl⟩

/-- A packet of a control transfer is offered as the protocol has it, and its
bytes are left as it says.  If it is sent, then as much of it as goes into one
packet. -/
theorem yields_controlPacket_received (stage : Stage) (p : Packet)
    (w : World Register σ) :
    (host.controlPacket s stage p.direction p.pid p.bytes).Yields False w
      fun r w' => ∃ steps,
        packetStage host.settings.nakRetryLimit stage p steps r.result ∧
        Taken host s steps w w' ∧
        Receives p.direction p.bytes.length p.bytes steps r ∧
        ∀ count, r.result = .ok count →
          (p.direction = .toDevice →
            count = min p.bytes.length s.ep0MaxPacket.toNat) ∧
          (p.direction = .toHost → count ≤ p.bytes.length) := by
  refine (yields_persist stage p _ w).mono fun r w' h => ?_
  obtain ⟨steps, moved, hoffered, htaken, hleaves, rfl⟩ := h
  refine ⟨steps, .intro hoffered, htaken, .packet hoffered hleaves,
    fun count hr => ?_⟩
  have hresult : moved.result = .ok count := by
    cases hmoved : moved.result with
    | ok n =>
      rw [hmoved] at hr
      cases hr
      rfl
    | error e =>
      rw [hmoved] at hr
      exact nomatch hr
  obtain ⟨hout, hin⟩ := hleaves.count_eq hresult
  refine ⟨fun hd => ?_, hin⟩
  rw [hout hd]
  unfold Exchange.requested Exchange.control
  rw [hd]
  rfl

/-- A packet of a control transfer is offered as the protocol has it.  No more
bytes are moved than the packet has, and all that fit if it is sent. -/
theorem yields_controlPacket (stage : Stage) (p : Packet)
    (w : World Register σ) :
    (host.controlPacket s stage p.direction p.pid p.bytes).Yields False w
      fun r w' => ∃ steps,
        packetStage host.settings.nakRetryLimit stage p steps r.result ∧
        Taken host s steps w w' ∧
        r.buffer.length = p.bytes.length ∧
        ∀ count, r.result = .ok count →
          (p.direction = .toDevice →
            count = min p.bytes.length s.ep0MaxPacket.toNat) ∧
          (p.direction = .toHost → count ≤ p.bytes.length) := by
  refine (yields_controlPacket_received stage p w).mono fun r w' h => ?_
  obtain ⟨steps, hpacket, htaken, hreceives, hcount⟩ := h
  exact ⟨steps, hpacket, htaken, hreceives.length_eq (Nat.le_refl _), hcount⟩

/-! ### The data stage -/

theorem dataPid_next (k : Nat) : (dataPid k).next = dataPid (k + 1) := by
  unfold dataPid
  rcases Nat.mod_two_eq_zero_or_one k with h | h
  · rw [if_pos h, if_neg (by omega)]
    rfl
  · rw [if_neg (by omega), if_pos (by omega)]
    rfl

/-- A packet that is not short has moved in full. -/
theorem moved_in_full {direction : Direction} {size e count : Nat}
    (hout : direction = .toDevice → count = min size e)
    (hin : direction = .toHost → count ≤ size)
    (hlarge : direction = .toHost → e ≤ count) (hfits : size ≤ e) :
    count = size := by
  cases direction with
  | toDevice =>
    rw [hout rfl]
    exact Nat.min_eq_left hfits
  | toHost => exact Nat.le_antisymm (hin rfl) (Nat.le_trans hfits (hlarge rfl))

section DataStages

variable {direction : Direction} {total : Nat} {buffer : List Byte}

/-- Where the driver is in a data stage that it has begun in `w`: after `k`
packets, with the buffer as their steps have left it, and with steps behind it
that can be continued as the stage can from here. -/
def Underway (host : Host σ) (s : Link) (direction : Direction) (total : Nat)
    (buffer : List Byte) (w : World Register σ) (stage : Host.DataStage)
    (v : World Register σ) : Prop :=
  ∃ k steps, stage.pid = dataPid k ∧
    Receives direction total buffer steps ⟨.ok stage.moved, stage.buffer⟩ ∧
    Taken host s steps w v ∧
    ∀ rest r, DataStage host.settings.nakRetryLimit direction total
        s.ep0MaxPacket.toNat buffer k stage.moved rest r →
      DataStage host.settings.nakRetryLimit direction total
        s.ep0MaxPacket.toNat buffer 0 0 (steps ++ rest) r

/-- A data stage follows the protocol from beginning to end. -/
theorem yields_dataStage (htotal : total ≤ buffer.length)
    (w : World Register σ) :
    (host.dataStage s direction total buffer).Yields False w fun r w' =>
      ∃ steps, DataStage host.settings.nakRetryLimit direction total
          s.ep0MaxPacket.toNat buffer 0 0 steps r.result ∧
        Taken host s steps w w' ∧
        Receives direction total buffer steps r := by
  refine .loop (Underway host s direction total buffer w) (fun _ _ => 0) ?_
    ⟨0, [], rfl, .nothing rfl rfl fun _ _ h => by cases h; rfl, .nil w,
      fun _ _ h => h⟩
  intro stage v hstage
  obtain ⟨k, steps, hpid, hreceives, htaken, hcontinues⟩ := hstage
  by_cases hmore : stage.moved < total
  · rw [if_pos hmore]
    dsimp only
    let size := min (total - stage.moved) s.ep0MaxPacket.toNat
    let p :=
      dataPacket direction total s.ep0MaxPacket.toNat buffer k stage.moved
    have hp : p.bytes.length = size := length_dataPacket htotal k stage.moved
    have hleft : stage.moved + size ≤ total := by omega
    have hchunk : p.bytes =
        (stage.buffer.take (stage.moved + size)).drop stage.moved := by
      have hrest : stage.buffer.drop stage.moved = buffer.drop stage.moved :=
        hreceives.rest rfl
      rw [List.drop_take, Nat.add_sub_cancel_left, hrest]
      rfl
    have hslice : (Run.slice stage.buffer stage.moved (stage.moved + size) :
        Run Register σ (List Byte)).Yields False v fun chunk v' =>
          chunk = p.bytes ∧ stage.moved + size ≤ stage.buffer.length ∧ v = v' :=
      Run.yields_check False.elim fun h => ⟨hchunk.symm, h.2, rfl⟩
    refine hslice.bind fun chunk v' h => ?_
    obtain ⟨rfl, hsize, rfl⟩ := h
    rw [hpid]
    refine (yields_controlPacket_received .data p v).bind fun packet v' h => ?_
    obtain ⟨steps', hpacket, htaken', hreceives', hcount⟩ := h
    replace htaken := htaken.append htaken'
    rw [hp] at hreceives'
    obtain ⟨result, bytes⟩ := packet
    cases result with
    | error e =>
      exact .pure ⟨_, hcontinues steps' _ (.failed hmore hpacket), htaken,
        hreceives.extend hchunk hreceives' hsize hleft fun _ _ => nofun⟩
    | ok count =>
      obtain ⟨hout, hin⟩ := hcount count rfl
      have hextends : Receives direction total buffer (steps ++ steps')
          ⟨.ok (stage.moved + count), stage.buffer.take stage.moved ++ bytes ++
            stage.buffer.drop (stage.moved + size)⟩ :=
        hreceives.extend hchunk hreceives' hsize hleft fun _ n h => by
          cases h
          exact ⟨count, rfl, rfl⟩
      dsimp only
      split
      next hshort =>
        exact .pure ⟨_, hcontinues steps' _ (.short hmore hshort.1 hshort.2
          (hin hshort.1) hpacket), htaken, hextends⟩
      next hfull =>
        have hlarge : direction = .toHost → s.ep0MaxPacket.toNat ≤ count :=
          fun hd => Nat.le_of_not_lt fun hlt => hfull ⟨hd, hlt⟩
        have hall : count = size := by
          rw [hp] at hout hin
          exact moved_in_full hout hin hlarge (Nat.min_le_right _ _)
        refine .pure ⟨⟨k + 1, _, dataPid_next k, hextends, htaken,
          fun rest r h => ?_⟩, False.elim⟩
        rw [List.append_assoc]
        exact hcontinues _ r
          (.more hmore hlarge (hall.trans hp.symm) hpacket h)
  · rw [if_neg hmore]
    refine .pure ⟨_, hcontinues [] _ (.complete (Nat.le_of_not_lt hmore)), ?_⟩
    rw [List.append_nil]
    exact ⟨htaken, hreceives⟩

end DataStages

/-! ### Whole transfers -/

/-- A status stage follows the protocol, and leaves the buffer alone. -/
theorem yields_statusStage (direction : Direction) (count : Nat)
    (buffer : List Byte) (w : World Register σ) :
    (host.statusStage s direction count buffer).Yields False w fun r w' =>
      ∃ steps, statusStage host.settings.nakRetryLimit direction count steps
          r.result ∧
        Taken host s steps w w' ∧
        received steps = [] ∧ r.buffer = buffer ∧
        ∀ n, r.result = .ok n → n = count := by
  refine (yields_controlPacket_received .status ⟨direction, .data1, []⟩ w).bind
    ?_
  intro packet v h
  obtain ⟨steps, hpacket, htaken, hreceives, -⟩ := h
  have hnone : received steps = [] :=
    List.eq_nil_of_length_eq_zero (Nat.le_zero.1 hreceives.fits)
  obtain ⟨result, bytes⟩ := packet
  cases result with
  | ok n =>
    refine .pure ⟨_, .followed hpacket .intro, htaken.append (.nil v), ?_, rfl,
      fun n h => by cases h; rfl⟩
    rw [List.append_nil, hnone]
  | error e =>
    exact .pure ⟨steps, .failed hpacket, htaken, hnone, rfl, fun _ => nofun⟩

/-- A control transfer follows the protocol, and leaves its buffer as the
steps of its data stage have. -/
theorem yields_control_received (setup : SetupPacket) (buffer : List Byte)
    (w : World Register σ) :
    (host.control s setup buffer).Yields False w fun r w' =>
      ∃ steps, controlTransfer host.settings.nakRetryLimit
          s.ep0MaxPacket.toNat setup buffer steps r.result ∧
        Taken host s steps w w' ∧
        Receives (SetupPacket.direction.get setup)
          (min (SetupPacket.length.get setup).toNat buffer.length) buffer steps
          r := by
  refine (yields_controlPacket_received .setup
    ⟨.toDevice, .setup, setup.bytes⟩ w).bind ?_
  intro sent v h
  obtain ⟨steps, hsent, htaken, hreceives, -⟩ := h
  have hnone : received steps = [] := hreceives.sent rfl
  obtain ⟨result, bytes⟩ := sent
  cases result with
  | error e =>
    exact .pure ⟨steps, .failed hsent, htaken,
      .nothing hnone rfl fun _ _ => nofun⟩
  | ok n =>
    dsimp only
    have hiff : 0 < min (SetupPacket.length.get setup).toNat buffer.length ↔
        0 < (SetupPacket.length.get setup).toNat ∧ buffer ≠ [] := by
      rw [← List.length_pos_iff]
      omega
    by_cases hdata : 0 < (SetupPacket.length.get setup).toNat ∧ buffer ≠ []
    · rw [if_pos (hiff.2 hdata)]
      refine (yields_dataStage (Nat.min_le_right _ _) v).bind
        fun moved v' h => ?_
      obtain ⟨steps', hmoved, htaken', hreceives'⟩ := h
      obtain ⟨result, bytes⟩ := moved
      cases result with
      | error e =>
        refine .pure ⟨_, .followed hsent ?_, htaken.append htaken',
          hreceives'.after hnone⟩
        rw [if_pos hdata]
        exact .failed hmoved
      | ok count =>
        refine (yields_statusStage _ count bytes v').mono fun r w' h => ?_
        obtain ⟨rest, hstatus, hrest, hnone', hbuffer, hcount⟩ := h
        refine ⟨_, .followed hsent ?_, htaken.append (htaken'.append hrest),
          (hreceives'.before hnone' hbuffer hcount).after hnone⟩
        rw [if_pos hdata]
        exact .followed hmoved hstatus
    · rw [if_neg (mt hiff.1 hdata)]
      refine (yields_statusStage .toHost 0 buffer v).mono fun r w' h => ?_
      obtain ⟨rest, hstatus, hrest, hnone', hbuffer, hcount⟩ := h
      refine ⟨_, .followed hsent ?_, htaken.append hrest,
        .after (.nothing hnone' hbuffer fun _ => hcount) hnone⟩
      rw [if_neg hdata]
      exact hstatus

/-- A control transfer follows the protocol. -/
theorem yields_control (setup : SetupPacket) (buffer : List Byte)
    (w : World Register σ) :
    (host.control s setup buffer).Yields False w fun r w' =>
      ∃ steps, controlTransfer host.settings.nakRetryLimit
          s.ep0MaxPacket.toNat setup buffer steps r.result ∧
        Taken host s steps w w' :=
  (yields_control_received setup buffer w).mono
    fun _ _ ⟨steps, hcourse, htaken, _⟩ => ⟨steps, hcourse, htaken⟩

/-- On whatever hardware, if a control transfer returns, then it has taken the
steps of a transfer as the protocol has it, no others, and with the result that
the protocol gives them. -/
theorem control_follows_protocol {setup : SetupPacket} {buffer : List Byte}
    {patience : Nat} {w w' : World Register σ} {moved : Moved UsbError}
    (h : host.control s setup buffer patience w = .ok moved w') :
    ∃ steps, controlTransfer host.settings.nakRetryLimit
        s.ep0MaxPacket.toNat setup buffer steps moved.result ∧
      Taken host s steps w w' :=
  (yields_control setup buffer w).of_run h

/-- A core that refuses the first exchange and accepts all others, and on which
nothing is received.  Its state is the number of exchanges so far. -/
def reluctant : Core Nat where
  bus :=
    { read := fun r n =>
        match r with
        | .interruptStatus => (CoreInterrupts.startOfFrame.bits, n)
        | .npTxStatus => (0xFFFF, n)
        | .channel _ .interrupts =>
          (if n = 0 then ChannelInterrupts.nak.bits
            else ChannelInterrupts.transferComplete.bits, n + 1)
        | _ => (0, n)
      write := fun _ _ n => n }
  clock := { now := fun n => (.zero, n), skip := some fun _ n => n }

/-- A report of ten bytes is sent in two packets, after a SETUP packet that has
to be repeated: in five exchanges altogether. -/
theorem report_follows_protocol :
    let setup : SetupPacket := .ofFields .interface .deviceClass .toDevice
      SetupPacket.setReportCode 0 0 10
    let report : List Byte := List.replicate 10 0
    ∃ steps w', w'.env = 5 ∧ controlTransfer 100 8 setup report steps (.ok 10) ∧
      Taken ⟨reluctant, {}⟩ {} steps ⟨0, []⟩ w' := by
  intro setup report
  have hreturns : (match (Host.control ⟨reluctant, {}⟩ {} setup report) 4
        ⟨0, []⟩ with
      | .ok moved w' => decide (moved.result.toOption = some 10 ∧ w'.env = 5)
      | .error _ _ => false) = true := by decide +kernel
  cases hrun : (Host.control ⟨reluctant, {}⟩ {} setup report) 4 ⟨0, []⟩ with
  | error halt w' =>
    rw [hrun] at hreturns
    exact nomatch hreturns
  | ok moved w' =>
    rw [hrun] at hreturns
    obtain ⟨hresult, henv⟩ := of_decide_eq_true hreturns
    obtain ⟨steps, hfollows, htaken⟩ := control_follows_protocol hrun
    have hok : moved.result = .ok 10 := by
      cases hr : moved.result with
      | ok n =>
        rw [hr] at hresult
        cases hresult
        rfl
      | error e =>
        rw [hr] at hresult
        exact nomatch hresult
    rw [hok] at hfollows
    exact ⟨steps, w', henv, hfollows, htaken⟩

end UsbHost.Protocol
