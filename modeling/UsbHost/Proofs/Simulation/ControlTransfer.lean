import UsbHost.Proofs.Simulation.ControlPacket

/-!
# Control transfers on the simulated core

A control transfer with a device that is not forced, stage by stage.  Host and
device each count the bytes they have moved; the two counts agree as long as
the device fills its packets, and the first packet that is not full ends the
stage.

## Main results

* `leads_setup` — the SETUP stage leaves the request pending on the device.
* `leads_dataStage_in`, `leads_dataStage_out` — a data stage moves just the
  bytes it should.
* `leads_statusStage` — the handshake applies the request.
* `leads_control_in`, `leads_control_out`, `leads_control_none` — whole
  transfers.
-/

namespace UsbHost.Simulation

/-! ## The device's side -/

namespace Device

variable {d : Device} {s : Link} {setup : SetupPacket}

/-- What a SETUP packet leaves pending. -/
def begun (d : Device) (setup : SetupPacket) : PendingControl :=
  { setup
    response := ((d.answer? setup).getD []).take
      (SetupPacket.length.get setup).toNat
    stalled := (d.answer? setup).isNone ||
      d.stallRequest = some (SetupPacket.request.get setup) }

/-- What is not stalled has an answer. -/
theorem begun_response (h : (d.begun setup).stalled = false) :
    ∃ response, d.answer? setup = some response ∧
      (d.begun setup).response =
        response.take (SetupPacket.length.get setup).toNat := by
  unfold begun at h ⊢
  cases hanswer : d.answer? setup with
  | none =>
    rw [hanswer] at h
    exact nomatch h
  | some response => exact ⟨response, rfl, rfl⟩

theorem controlTransaction_setup (he : 8 ≤ s.ep0MaxPacket.toNat) :
    d.controlTransaction (packet s .toDevice .setup setup.bytes) =
      (.ack [], { d with control := some (d.begun setup) }) := by
  have hlength : setup.bytes.length = 8 := length_littleEndian 8 _
  have hdata := packet_data s .setup setup.bytes (by omega)
  unfold controlTransaction beginControl
  rw [packet_pid, if_pos rfl, hdata, if_pos hlength, SetupPacket.ofBytes_bytes]
  rfl

theorem controlTransaction_pending {t : Transaction} {c : PendingControl}
    (hp : t.pid ≠ .setup) (hc : d.control = some c) :
    d.controlTransaction t =
      if c.stalled then (.stall, d)
      else if SetupPacket.length.get c.setup = 0 ∨
          t.direction ≠ SetupPacket.direction.get c.setup then
        d.controlStatus t c
      else d.controlData t c := by
  unfold controlTransaction
  rw [if_neg hp, hc]

/-- No request takes back what the device has received. -/
theorem apply_receivedOut (d : Device) (setup : SetupPacket) :
    (d.apply setup).receivedOut = d.receivedOut := by
  unfold apply
  dsimp only
  split
  · rfl
  · split
    · rfl
    · split
      · rfl
      · rfl

/-- Nothing is acknowledged after a request that the device stalls. -/
theorem stalled_of_ack {d' : Device} {t : Transaction} {c : PendingControl}
    {data : List Byte} (hp : t.pid ≠ .setup) (hc : d.control = some c)
    (h : d.controlTransaction t = (.ack data, d')) : c.stalled = false := by
  cases hs : c.stalled with
  | false => rfl
  | true =>
    rw [controlTransaction_pending hp hc, if_pos hs] at h
    exact nomatch h

end Device

section Transfer

variable {τ : Type} {T : Prop} {clock : Clock τ} {settings : Settings}
  {k : Controller} {s : Link} {setup : SetupPacket} {c : PendingControl}
  {buffer : List Byte}

/-- What has to hold for a transfer to a device to be certain to succeed, as
far as it concerns all its packets. -/
structure Reaches (clock : Clock τ) (settings : Settings) (s : Link)
    (k : Controller) : Prop where
  delays : (hostOn clock settings).core.DelaysReturn
  addressed : k.device.address = (s.address.setWidth 7).setWidth 8
  patient : k.device.nakBudget < settings.nakRetryLimit
  space : 2 ≤ k.txSpace

/-- Two words are room enough for a SETUP packet. -/
theorem not_starved_setup (hspace : 2 ≤ k.txSpace) :
    ¬ k.Starved (.control .toDevice .setup) s setup.bytes.length := by
  intro hstarved
  have hlt := hstarved.2
  have hwords : wordCount ((Exchange.control .toDevice .setup).requested s
      setup.bytes.length) ≤ 2 := by
    have hrequested : (Exchange.control .toDevice .setup).requested s
        setup.bytes.length ≤ setup.bytes.length :=
      Exchange.requested_le _ s rfl
    have hlength : setup.bytes.length = 8 := length_littleEndian 8 _
    unfold wordCount
    omega
  omega

/-- The SETUP stage leaves the request pending on the device. -/
theorem leads_setup (hf : k.device.forced = none) (hclean : k.Clean .control)
    (he : 8 ≤ s.ep0MaxPacket.toNat) (hT : T → Reaches clock settings s k) :
    Leads T ((hostOn clock settings).controlPacket s .setup .toDevice .setup
        setup.bytes) k fun moved k' =>
      (¬ T ∧ ∃ e, moved.result = .error e) ∨
      (∃ n, moved.result = .ok n) ∧
        k.device.address = (s.address.setWidth 7).setWidth 8 ∧
        Became k
          { k.device.ready with control := some (k.device.begun setup) } k' := by
  have hsetup : k.device.ready.controlTransaction
      (packet s .toDevice .setup setup.bytes) = (.ack [],
        { k.device.ready with control := some (k.device.begun setup) }) :=
    Device.controlTransaction_setup he
  refine (leads_controlPacket hf hclean ?_).mono ?_
  · intro ht
    have hreach := hT ht
    refine ⟨hreach.delays, hreach.addressed, hreach.patient, ?_, ?_⟩
    · exact not_starved_setup hreach.space
    · exact ⟨[], congrArg Prod.fst hsetup⟩
  · intro moved k' h
    rcases h with ⟨ht, e, rfl⟩ | ⟨data, d, ha, hr, rfl, hk'⟩
    · exact .inl ⟨ht, e, rfl⟩
    · rw [hsetup] at hr
      cases hr
      exact .inr ⟨⟨_, rfl⟩, ha, hk'⟩

/-! ## Receiving data -/

/-- How much of a response arrives in an IN data stage: a device whose packets
are smaller than the host expects ends the stage with its first packet. -/
def receivable (total e p response : Nat) : Nat :=
  if e ≤ p then min total response else min total (min p response)

/-- How far an IN data stage has come: the front of the response is in the
buffer, and the device has sent full packets so far. -/
structure Receiving (response buffer : List Byte) (total e p : Nat)
    (stage : Host.DataStage) : Prop where
  le_total : stage.moved ≤ total
  le_response : stage.moved ≤ response.length
  buffer_eq : stage.buffer =
    response.take stage.moved ++ buffer.drop stage.moved
  pid_ne : stage.pid ≠ .setup
  full : stage.moved = 0 ∨ e ≤ p

/-- Storing the next piece of the response at its place in the buffer. -/
theorem splice_eq {response current : List Byte} {m : Nat}
    (buffer : List Byte) (size q : Nat) (hm : m ≤ response.length)
    (hsize : m + size ≤ buffer.length)
    (hcurrent : current = response.take m ++ buffer.drop m) :
    let data := (response.drop m).take q
    let chunk := (current.take (m + size)).drop m
    chunk.length = size ∧
    current.take m ++ (data.take size ++ chunk.drop (min size data.length)) ++
        current.drop (m + size) =
      response.take (m + min size data.length) ++
        buffer.drop (m + min size data.length) := by
  intro data chunk
  have hlength : (response.take m).length = m := List.length_take_of_le hm
  have htake : current.take m = response.take m := by
    rw [hcurrent, List.take_append_of_le_length (by omega), List.take_take,
      Nat.min_self]
  have hdrop : current.drop m = buffer.drop m := by
    rw [hcurrent, List.drop_append_of_le_length (by omega),
      List.drop_eq_nil_of_le (by omega), List.nil_append]
  have hchunk : chunk = (buffer.drop m).take size := by
    show (current.take (m + size)).drop m = _
    rw [List.drop_take, hdrop, Nat.add_sub_cancel_left]
  have hrest : current.drop (m + size) = buffer.drop (m + size) := by
    rw [← List.drop_drop, hdrop, List.drop_drop]
  have hfront : response.take m ++ data.take size =
      response.take (m + min size data.length) := by
    rw [List.take_add, List.take_take]
    congr 1
    rw [List.take_eq_take_iff, List.length_take]
    omega
  have hend : chunk.drop (min size data.length) ++ buffer.drop (m + size) =
      buffer.drop (m + min size data.length) := by
    have hsize' : ((buffer.drop m).take size).length = size := by
      rw [List.length_take, List.length_drop]
      omega
    have hle : min size data.length ≤ ((buffer.drop m).take size).length := by
      rw [hsize']
      exact Nat.min_le_left _ _
    rw [hchunk, ← List.drop_drop, ← List.drop_append_of_le_length hle,
      List.take_append_drop, List.drop_drop]
  refine ⟨?_, ?_⟩
  · rw [hchunk, List.length_take, List.length_drop]
    omega
  · rw [htake, hrest, List.append_assoc, List.append_assoc, hend,
      ← List.append_assoc, hfront]

theorem next_ne_setup (pid : Pid) : pid.next ≠ .setup := by
  cases pid <;> exact nofun

/-- The packet that is not full has brought everything that can be received. -/
theorem Receiving.finish {response : List Byte} {total e p : Nat}
    {stage : Host.DataStage} (h : Receiving response buffer total e p stage)
    (hmore : stage.moved < total) {count : Nat}
    (hcount : count = min (min (total - stage.moved) e)
      ((response.drop stage.moved).take (min p e)).length)
    (hshort : count < e) :
    stage.moved + count = receivable total e p response.length := by
  have hfull := h.full
  have hresponse := h.le_response
  rw [List.length_take, List.length_drop] at hcount
  unfold receivable
  split
  · omega
  · omega

/-- A full packet brings the stage further. -/
theorem Receiving.step {response current : List Byte} {total e p : Nat}
    {stage : Host.DataStage} (h : Receiving response buffer total e p stage)
    {count : Nat}
    (hcount : count = min (min (total - stage.moved) e)
      ((response.drop stage.moved).take (min p e)).length)
    (hfull : ¬ count < e)
    (hcurrent : current = response.take (stage.moved + count) ++
      buffer.drop (stage.moved + count)) :
    Receiving response buffer total e p
        { moved := stage.moved + count, pid := stage.pid.next,
          buffer := current } ∧
      min (stage.moved + min p e) response.length = stage.moved + count := by
  have htotal := h.le_total
  have hresponse := h.le_response
  rw [List.length_take, List.length_drop] at hcount
  refine ⟨⟨?_, ?_, hcurrent, next_ne_setup _, ?_⟩, ?_⟩
  · show stage.moved + count ≤ total
    omega
  · show stage.moved + count ≤ response.length
    omega
  · show stage.moved + count = 0 ∨ e ≤ p
    omega
  · omega

/-- A device that has sent the first `sent` bytes of a response. -/
def Device.sending (d : Device) (c : PendingControl) (sent : Nat) : Device :=
  { d with control := some { c with sent } }

/-- What the device sends next is the next piece of its response. -/
theorem Device.controlTransaction_in {d : Device} {pid : Pid} {m : Nat}
    (hp : pid ≠ .setup) (hs : c.stalled = false)
    (hl : SetupPacket.length.get c.setup ≠ 0)
    (hd : SetupPacket.direction.get c.setup = .toHost)
    (hm : m ≤ c.response.length) (he : s.ep0MaxPacket.toNat < 2048) :
    let q := min d.packetSize s.ep0MaxPacket.toNat
    (d.sending c m).controlTransaction (packet s .toHost pid buffer) =
      (.ack ((c.response.drop m).take q),
        d.sending c (min (m + q) c.response.length)) := by
  intro q
  have hmax : (packet s .toHost pid buffer).maxPacket.toNat =
      s.ep0MaxPacket.toNat := by
    rw [packet_maxPacket, BitVec.toNat_setWidth]
    omega
  have hdata : ¬ (SetupPacket.length.get c.setup = 0 ∨
      (packet s .toHost pid buffer).direction ≠
        SetupPacket.direction.get c.setup) := by
    intro h
    rcases h with h | h
    · exact hl h
    · exact h hd.symm
  have hnot : ¬ c.stalled = true := by
    rw [hs]
    exact Bool.false_ne_true
  have hslice : (c.response.take (min (m + q) c.response.length)).drop m =
      (c.response.drop m).take q := by
    rw [List.drop_take, List.take_eq_take_iff, List.length_drop]
    omega
  rw [controlTransaction_pending hp rfl, if_neg hnot, if_neg hdata,
    controlData, packet_direction, hmax, ← hslice]
  rfl

/-- One packet of an IN data stage. -/
theorem leads_dataPacket_in {v : Controller} {pid : Pid} {m : Nat}
    (hf : k.device.forced = none) (hready : k.device.ready = k.device)
    (hv : Became k (k.device.sending c m) v) (hp : pid ≠ .setup)
    (hl : SetupPacket.length.get c.setup ≠ 0)
    (hd : SetupPacket.direction.get c.setup = .toHost)
    (hm : m ≤ c.response.length) (he : s.ep0MaxPacket.toNat < 2048)
    (hT : T → Reaches clock settings s k ∧ c.stalled = false) :
    let q := min k.device.packetSize s.ep0MaxPacket.toNat
    Leads T ((hostOn clock settings).controlPacket s .data .toHost pid buffer) v
      fun moved k' =>
        (¬ T ∧ ∃ e, moved.result = .error e) ∨
        c.stalled = false ∧
          moved = taken s buffer ((c.response.drop m).take q) .toHost ∧
          Became k
            (k.device.sending c (min (m + q) c.response.length)) k' := by
  intro q
  have hready' : v.device.ready = k.device.sending c m := by
    rw [hv.device, Device.sending, ← hready]
    rfl
  have htransaction : c.stalled = false →
      (k.device.sending c m).controlTransaction (packet s .toHost pid buffer) =
        (.ack ((c.response.drop m).take q),
          k.device.sending c (min (m + q) c.response.length)) :=
    fun hs => Device.controlTransaction_in hp hs hl hd hm he
  refine (leads_controlPacket ?_ hv.clean ?_).mono ?_
  · rw [hv.device]
    exact hf
  · intro ht
    obtain ⟨hreach, hs⟩ := hT ht
    rw [hready', htransaction hs, hv.device]
    exact ⟨hreach.delays, hreach.addressed, hreach.patient,
      not_starved_in s pid v _, _, rfl⟩
  · intro moved k' h
    rcases h with ⟨ht, e, rfl⟩ | ⟨data, d, -, hr, rfl, hk'⟩
    · exact .inl ⟨ht, e, rfl⟩
    · rw [hready'] at hr
      have hs : c.stalled = false :=
        Device.stalled_of_ack (c := { c with sent := m }) hp rfl hr
      rw [htransaction hs] at hr
      cases hr
      exact .inr ⟨hs, rfl, hv.core.trans hk'.core, hk'.clean, hk'.device⟩

/-- An IN data stage moves the front of the response into the buffer. -/
theorem leads_dataStage_in {total : Nat} (hf : k.device.forced = none)
    (hclean : k.Clean .control) (hready : k.device.ready = k.device)
    (hc : k.device.control = some c) (hsent : c.sent = 0)
    (hl : SetupPacket.length.get c.setup ≠ 0)
    (hd : SetupPacket.direction.get c.setup = .toHost)
    (he : 0 < s.ep0MaxPacket.toNat ∧ s.ep0MaxPacket.toNat < 2048)
    (htotal : 0 < total ∧ total ≤ buffer.length)
    (hT : T → Reaches clock settings s k ∧ c.stalled = false) :
    let n := receivable total s.ep0MaxPacket.toNat k.device.packetSize
      c.response.length
    Leads T ((hostOn clock settings).dataStage s .toHost total buffer) k
      fun moved k' =>
        (¬ T ∧ ∃ e, moved.result = .error e) ∨
        c.stalled = false ∧
          moved = ⟨.ok n, c.response.take n ++ buffer.drop n⟩ ∧
          ∃ sent, Became k (k.device.sending c sent) k' := by
  intro n
  refine .loop
    (fun stage v =>
      Receiving c.response buffer total s.ep0MaxPacket.toNat
        k.device.packetSize stage ∧
      (0 < stage.moved → c.stalled = false) ∧
      Became k (k.device.sending c stage.moved) v)
    (fun stage _ => total - stage.moved) ?_ ?_
  · intro stage v h
    obtain ⟨hstage, hstalled, hv⟩ := h
    by_cases hmore : stage.moved < total
    · rw [if_pos hmore]
      dsimp only
      have hlength : stage.buffer.length = buffer.length := by
        have hresponse := hstage.le_response
        rw [hstage.buffer_eq, List.length_append, List.length_take,
          List.length_drop]
        omega
      rw [Run.slice_eq (Nat.le_add_right _ _) (by omega), pure_bind]
      obtain ⟨hchunk, hsplice⟩ := splice_eq buffer
        (min (total - stage.moved) s.ep0MaxPacket.toNat)
        (min k.device.packetSize s.ep0MaxPacket.toNat) hstage.le_response
        (by omega) hstage.buffer_eq
      refine (leads_dataPacket_in hf hready hv hstage.pid_ne hl hd
        hstage.le_response he.2 hT).bind ?_
      intro packet v' h
      rcases h with ⟨ht, e, hresult⟩ | ⟨hs, rfl, hv'⟩
      · rw [hresult]
        exact .pure (.inl ⟨ht, e, rfl⟩)
      · dsimp only [taken]
        rw [hchunk]
        split
        next hshort =>
          refine .pure (.inr ⟨hs, ?_, _, hv'⟩)
          rw [hsplice, hstage.finish hmore rfl hshort.2]
        next hfull =>
          have hfull' : ¬ min (min (total - stage.moved) s.ep0MaxPacket.toNat)
              ((c.response.drop stage.moved).take
                (min k.device.packetSize s.ep0MaxPacket.toNat)).length <
              s.ep0MaxPacket.toNat := fun h => hfull ⟨rfl, h⟩
          obtain ⟨hstage', hsent'⟩ := hstage.step rfl hfull' hsplice
          rw [hsent'] at hv'
          refine .pure ⟨⟨hstage', fun _ => hs, hv'⟩, fun _ => ?_⟩
          dsimp only
          omega
    · rw [if_neg hmore]
      have hall : stage.moved = total := by
        have hle := hstage.le_total
        omega
      have hn : n = stage.moved := by
        have hresponse := hstage.le_response
        have hfull := hstage.full
        show receivable _ _ _ _ = _
        rw [receivable, if_pos (by omega)]
        omega
      refine .pure (.inr ⟨hstalled (by omega), ?_, _, hv⟩)
      rw [hn, ← hstage.buffer_eq]
  · refine ⟨⟨Nat.zero_le _, Nat.zero_le _, rfl, nofun, .inl rfl⟩, nofun,
      .refl k, hclean, ?_⟩
    have hstart : { c with sent := 0 } = c := by rw [← hsent]
    unfold Device.sending
    rw [hstart, ← hc]

/-! ## Sending data -/

/-- A device that has received some more bytes. -/
def Device.storing (d : Device) (bytes : List Byte) : Device :=
  { d with receivedOut := d.receivedOut ++ bytes }

/-- Data sent to the device is stored behind what was there. -/
theorem Device.controlTransaction_out {d : Device} {pid : Pid}
    (hp : pid ≠ .setup) (hc : d.control = some c) (hs : c.stalled = false)
    (hl : SetupPacket.length.get c.setup ≠ 0)
    (hd : SetupPacket.direction.get c.setup = .toDevice)
    (hfits : buffer.length ≤ s.ep0MaxPacket.toNat) :
    d.controlTransaction (packet s .toDevice pid buffer) =
      (.ack [], d.storing buffer) := by
  have hdata : ¬ (SetupPacket.length.get c.setup = 0 ∨
      (packet s .toDevice pid buffer).direction ≠
        SetupPacket.direction.get c.setup) := by
    intro h
    rcases h with h | h
    · exact hl h
    · exact h hd.symm
  have hnot : ¬ c.stalled = true := by
    rw [hs]
    exact Bool.false_ne_true
  rw [controlTransaction_pending hp hc, if_neg hnot, if_neg hdata,
    controlData, packet_direction, packet_data s pid buffer hfits]
  rfl

/-- One packet of an OUT data stage. -/
theorem leads_dataPacket_out {v : Controller} {pid : Pid}
    {before : List Byte} (hf : k.device.forced = none)
    (hready : k.device.ready = k.device) (hc : k.device.control = some c)
    (hv : Became k (k.device.storing before) v) (hp : pid ≠ .setup)
    (hl : SetupPacket.length.get c.setup ≠ 0)
    (hd : SetupPacket.direction.get c.setup = .toDevice)
    (hfits : buffer.length ≤ s.ep0MaxPacket.toNat) :
    Leads False
      ((hostOn clock settings).controlPacket s .data .toDevice pid buffer) v
      fun moved k' =>
        (∃ e, moved.result = .error e) ∨
        c.stalled = false ∧ moved = ⟨.ok buffer.length, buffer⟩ ∧
          Became k (k.device.storing (before ++ buffer)) k' := by
  have hready' : v.device.ready = k.device.storing before := by
    rw [hv.device, Device.storing, ← hready]
    rfl
  refine (leads_controlPacket ?_ hv.clean False.elim).mono ?_
  · rw [hv.device]
    exact hf
  · intro moved k' h
    rcases h with ⟨-, e, rfl⟩ | ⟨data, d, -, hr, rfl, hk'⟩
    · exact .inl ⟨e, rfl⟩
    · rw [hready'] at hr
      have hc' : (k.device.storing before).control = some c := hc
      have hs : c.stalled = false := Device.stalled_of_ack hp hc' hr
      rw [Device.controlTransaction_out hp hc' hs hl hd hfits] at hr
      cases hr
      refine .inr ⟨hs, ?_, hv.core.trans hk'.core, hk'.clean, ?_⟩
      · unfold taken
        rw [Nat.min_eq_left hfits]
      · rw [hk'.device]
        unfold Device.storing
        rw [List.append_assoc]

/-- An OUT data stage sends the front of the buffer, each byte once. -/
theorem leads_dataStage_out {total : Nat} (hf : k.device.forced = none)
    (hclean : k.Clean .control) (hready : k.device.ready = k.device)
    (hc : k.device.control = some c)
    (hl : SetupPacket.length.get c.setup ≠ 0)
    (hd : SetupPacket.direction.get c.setup = .toDevice)
    (htotal : 0 < total ∧ total ≤ buffer.length) :
    Leads False
      ((hostOn clock settings).dataStage s .toDevice total buffer) k
      fun moved k' =>
        (∃ e, moved.result = .error e) ∨
        c.stalled = false ∧ moved = ⟨.ok total, buffer⟩ ∧
          Became k (k.device.storing (buffer.take total)) k' := by
  refine .loop
    (fun stage v => stage.moved ≤ total ∧ stage.buffer = buffer ∧
      stage.pid ≠ .setup ∧ (0 < stage.moved → c.stalled = false) ∧
      Became k (k.device.storing (buffer.take stage.moved)) v)
    (fun stage _ => total - stage.moved) ?_ ?_
  · intro stage v h
    obtain ⟨hle, hbuffer, hp, hstalled, hv⟩ := h
    by_cases hmore : stage.moved < total
    · rw [if_pos hmore, hbuffer]
      let size := min (total - stage.moved) s.ep0MaxPacket.toNat
      let chunk := (buffer.take (stage.moved + size)).drop stage.moved
      have hsize : stage.moved + size ≤ buffer.length := by omega
      have hchunk : chunk.length = size := by
        show ((buffer.take (stage.moved + size)).drop stage.moved).length = _
        rw [List.length_drop, List.length_take, Nat.min_eq_left hsize,
          Nat.add_sub_cancel_left]
      have hfront : buffer.take stage.moved ++ chunk =
          buffer.take (stage.moved + size) := by
        have htake : (buffer.take (stage.moved + size)).take stage.moved =
            buffer.take stage.moved := by
          rw [List.take_take, Nat.min_eq_left (Nat.le_add_right _ _)]
        rw [← htake]
        exact List.take_append_drop _ _
      dsimp only
      rw [Run.slice_eq (Nat.le_add_right _ _) hsize, pure_bind]
      refine (leads_dataPacket_out hf hready hc hv hp hl hd ?_).bind ?_
      · show chunk.length ≤ _
        rw [hchunk]
        exact Nat.min_le_right _ _
      · intro moved v' h
        rcases h with ⟨e, hresult⟩ | ⟨hs, rfl, hv'⟩
        · rw [hresult]
          exact .pure (.inl ⟨e, rfl⟩)
        · dsimp only
          rw [if_neg nofun]
          refine .pure ⟨⟨?_, ?_, next_ne_setup _, fun _ => hs, ?_⟩, nofun⟩
          · show stage.moved + chunk.length ≤ total
            omega
          · show buffer.take stage.moved ++ chunk ++
              buffer.drop (stage.moved + size) = buffer
            rw [hfront, List.take_append_drop]
          · show Became k (k.device.storing
              (buffer.take (stage.moved + chunk.length))) v'
            rw [hchunk, ← hfront]
            exact hv'
    · rw [if_neg hmore]
      have hall : stage.moved = total := by omega
      rw [hall] at hv hstalled
      refine .pure (.inr ⟨hstalled htotal.1, ?_, hv⟩)
      rw [hall, hbuffer]
  · refine ⟨Nat.zero_le _, rfl, nofun, nofun, .refl k, hclean, ?_⟩
    show k.device = { k.device with receivedOut := k.device.receivedOut ++ [] }
    rw [List.append_nil]

/-! ## Handshakes -/

/-- The handshake applies the request. -/
theorem Device.controlTransaction_status {d : Device} {direction : Direction}
    (hc : d.control = some c) (hs : c.stalled = false)
    (hd : if SetupPacket.length.get c.setup = 0 then direction = .toHost
      else direction = (SetupPacket.direction.get c.setup).reversed) :
    d.controlTransaction (packet s direction .data1 []) =
      (.ack [], { d with control := none }.apply c.setup) := by
  have hnot : ¬ c.stalled = true := by
    rw [hs]
    exact Bool.false_ne_true
  have hp : (packet s direction .data1 []).pid ≠ .setup := nofun
  rw [controlTransaction_pending hp hc, if_neg hnot]
  by_cases hl : SetupPacket.length.get c.setup = 0
  · rw [if_pos hl] at hd
    subst hd
    rw [if_pos (.inl hl), controlStatus, if_neg fun h => nomatch h.2]
  · rw [if_neg hl] at hd
    have hne : direction ≠ SetupPacket.direction.get c.setup := by
      rw [hd]
      cases SetupPacket.direction.get c.setup <;> exact nofun
    rw [if_pos (.inr hne), controlStatus, if_neg fun h => hl h.1]

/-- The handshake ends the transfer, and with it the request is applied. -/
theorem leads_statusStage {direction : Direction} {count : Nat}
    (hf : k.device.forced = none) (hclean : k.Clean .control)
    (hready : k.device.ready = k.device) (hc : k.device.control = some c)
    (hd : if SetupPacket.length.get c.setup = 0 then direction = .toHost
      else direction = (SetupPacket.direction.get c.setup).reversed)
    (hT : T → Reaches clock settings s k ∧ c.stalled = false) :
    Leads T ((hostOn clock settings).statusStage s direction count buffer) k
      fun moved k' =>
        (¬ T ∧ ∃ e, moved.result = .error e) ∨
        c.stalled = false ∧ moved = ⟨.ok count, buffer⟩ ∧
          Became k ({ k.device with control := none }.apply c.setup) k' := by
  unfold Host.statusStage
  refine (leads_controlPacket hf hclean ?_).bind ?_
  · intro ht
    obtain ⟨hreach, hs⟩ := hT ht
    rw [hready, Device.controlTransaction_status hc hs hd]
    exact ⟨hreach.delays, hreach.addressed, hreach.patient,
      not_starved_empty s direction .data1 k, _, rfl⟩
  · intro moved k' h
    rcases h with ⟨ht, e, rfl⟩ | ⟨data, d, -, hr, rfl, hk'⟩
    · exact .pure (.inl ⟨ht, e, rfl⟩)
    · rw [hready] at hr
      have hp : (packet s direction .data1 []).pid ≠ .setup := nofun
      have hs : c.stalled = false := Device.stalled_of_ack hp hc hr
      rw [Device.controlTransaction_status hc hs hd] at hr
      cases hr
      cases direction with
      | toHost => exact .pure (.inr ⟨hs, rfl, hk'⟩)
      | toDevice => exact .pure (.inr ⟨hs, rfl, hk'⟩)

/-! ## Whole transfers -/

/-- What makes success certain survives a step that keeps the address and adds
no refusals. -/
theorem Reaches.step {k' : Controller} {d : Device}
    (h : Reaches clock settings s k) (hk : Became k d k')
    (ha : d.address = k.device.address)
    (hb : d.nakBudget ≤ k.device.nakBudget) :
    Reaches clock settings s k' := by
  refine ⟨h.delays, ?_, ?_, ?_⟩
  · rw [hk.device, ha]
    exact h.addressed
  · rw [hk.device]
    exact Nat.lt_of_le_of_lt hb h.patient
  · rw [hk.core.txSpace_eq]
    exact h.space

/-- What arrives of a response does not depend on how much of it is behind what
was asked for. -/
theorem receivable_min {total e p length : Nat} (h : total ≤ length)
    (response : Nat) : receivable total e p (min length response) =
      receivable total e p response := by
  unfold receivable
  split
  · omega
  · omega

theorem receivable_le (total e p response : Nat) :
    receivable total e p response ≤ total := by
  unfold receivable
  split
  · exact Nat.min_le_left _ _
  · exact Nat.min_le_left _ _

/-- What arrives of the data that a SETUP packet leaves pending is what arrives
of the device's answer. -/
theorem Device.begun_arrives {d : Device} {total : Nat} (e p : Nat)
    (h : (d.begun setup).stalled = false)
    (htotal : total ≤ (SetupPacket.length.get setup).toNat) :
    ∃ response, d.answer? setup = some response ∧
      let n := receivable total e p response.length
      receivable total e p (d.begun setup).response.length = n ∧
        (d.begun setup).response.take n = response.take n := by
  obtain ⟨response, hanswer, hresponse⟩ := begun_response h
  have hle : receivable total e p response.length ≤
      (SetupPacket.length.get setup).toNat :=
    Nat.le_trans (receivable_le _ _ _ _) htotal
  refine ⟨response, hanswer, ?_, ?_⟩
  · rw [hresponse, List.length_take]
    exact receivable_min htotal _
  · rw [hresponse, List.take_take, Nat.min_eq_left hle]

/-- Where something is to be moved, the request announces data. -/
theorem announces_data {total : Nat}
    (htotal : min (SetupPacket.length.get setup).toNat buffer.length = total)
    (hpositive : 0 < total) : SetupPacket.length.get setup ≠ 0 := by
  intro hzero
  rw [hzero] at htotal
  have hnone : min (0 : Half).toNat buffer.length = 0 := Nat.zero_min _
  omega

/-- What is known of the device once it has acknowledged a SETUP packet. -/
theorem Became.begun (hf : k.device.forced = none) {k₁ : Controller}
    (hk : Became k { k.device.ready with
      control := some (k.device.begun setup) } k₁) :
    k₁.device.forced = none ∧ k₁.device.ready = k₁.device ∧
      k₁.device.control = some (k.device.begun setup) := by
  rw [hk.device]
  exact ⟨hf, rfl, rfl⟩

/-- A request for data brings the front of the device's answer and is then
applied. -/
theorem leads_control_in {total : Nat} (hf : k.device.forced = none)
    (hclean : k.Clean .control)
    (he : 8 ≤ s.ep0MaxPacket.toNat ∧ s.ep0MaxPacket.toNat < 2048)
    (hd : SetupPacket.direction.get setup = .toHost)
    (htotal : min (SetupPacket.length.get setup).toNat buffer.length = total)
    (hpositive : 0 < total)
    (hT : T → Reaches clock settings s k ∧
      (k.device.begun setup).stalled = false) :
    Leads T ((hostOn clock settings).control s setup buffer) k fun moved k' =>
      (¬ T ∧ ∃ e, moved.result = .error e) ∨
      ∃ response, k.device.answer? setup = some response ∧
        let n := receivable total s.ep0MaxPacket.toNat k.device.packetSize
          response.length
        moved = ⟨.ok n, response.take n ++ buffer.drop n⟩ ∧
        Became k ({ k.device.ready with control := none }.apply setup) k' := by
  have hl := announces_data htotal hpositive
  unfold Host.control
  refine (leads_setup hf hclean he.1 fun ht => (hT ht).1).bind ?_
  intro sent k₁ h
  rcases h with ⟨ht, e, hresult⟩ | ⟨⟨count, hresult⟩, -, hk₁⟩
  · rw [hresult]
    exact .pure (.inl ⟨ht, e, rfl⟩)
  · rw [hresult]
    dsimp only
    rw [htotal, if_pos hpositive, hd]
    obtain ⟨hf₁, hready₁, hc₁⟩ := hk₁.begun hf
    refine (leads_dataStage_in hf₁ hk₁.clean hready₁ hc₁ rfl hl hd
      (by omega) (by omega) fun ht => ?_).bind ?_
    · exact ⟨(hT ht).1.step hk₁ rfl (Nat.zero_le _), (hT ht).2⟩
    · intro moved k₂ h
      rcases h with ⟨ht, e, hresult⟩ | ⟨hs, rfl, sent, hk₂⟩
      · rw [hresult]
        exact .pure (.inl ⟨ht, e, hresult⟩)
      · have hc₂ : k₂.device.control =
            some { k.device.begun setup with sent } := by
          rw [hk₂.device]
          rfl
        have hd₂ : if SetupPacket.length.get setup = 0 then
            Direction.toDevice = .toHost
            else .toDevice = (SetupPacket.direction.get setup).reversed := by
          rw [if_neg hl, hd]
          rfl
        refine (leads_statusStage (c := { k.device.begun setup with sent })
          ?_ hk₂.clean ?_ hc₂ hd₂ fun ht => ?_).mono ?_
        · rw [hk₂.device]
          exact hf₁
        · rw [hk₂.device, Device.sending, ← hready₁]
          rfl
        · refine ⟨?_, (hT ht).2⟩
          exact ((hT ht).1.step hk₁ rfl (Nat.zero_le _)).step hk₂ rfl
            (Nat.le_refl _)
        · intro moved k₃ h
          rcases h with ⟨ht, herror⟩ | ⟨-, rfl, hk₃⟩
          · exact .inl ⟨ht, herror⟩
          · have hp : k₁.device.packetSize = k.device.packetSize := by
              rw [hk₁.device]
              rfl
            have hasked : total ≤ (SetupPacket.length.get setup).toNat := by
              omega
            obtain ⟨response, hanswer, hn, hfront⟩ := Device.begun_arrives
              s.ep0MaxPacket.toNat k.device.packetSize hs hasked
            have hdevice : { k₂.device with control := none }.apply setup =
                { k.device.ready with control := none }.apply setup := by
              rw [hk₂.device, hk₁.device]
              rfl
            refine .inr ⟨response, hanswer, ?_, ?_, hk₃.clean, ?_⟩
            · rw [hp, hn, hfront]
            · exact hk₁.core.trans (hk₂.core.trans hk₃.core)
            · exact hk₃.device.trans hdevice

/-- A request with data sends the front of the buffer, each byte once, and is
then applied. -/
theorem leads_control_out {total : Nat} (hf : k.device.forced = none)
    (hclean : k.Clean .control) (he : 8 ≤ s.ep0MaxPacket.toNat)
    (hd : SetupPacket.direction.get setup = .toDevice)
    (htotal : min (SetupPacket.length.get setup).toNat buffer.length = total)
    (hpositive : 0 < total) :
    Leads False ((hostOn clock settings).control s setup buffer) k
      fun moved k' =>
        (∃ e, moved.result = .error e) ∨
        moved = ⟨.ok total, buffer⟩ ∧
          Became k ({ k.device.ready.storing (buffer.take total) with
            control := none }.apply setup) k' := by
  have hl := announces_data htotal hpositive
  unfold Host.control
  refine (leads_setup hf hclean he False.elim).bind ?_
  intro sent k₁ h
  rcases h with ⟨-, e, hresult⟩ | ⟨⟨count, hresult⟩, -, hk₁⟩
  · rw [hresult]
    exact .pure (.inl ⟨e, rfl⟩)
  · rw [hresult]
    dsimp only
    rw [htotal, if_pos hpositive, hd]
    obtain ⟨hf₁, hready₁, hc₁⟩ := hk₁.begun hf
    refine (leads_dataStage_out hf₁ hk₁.clean hready₁ hc₁ hl hd
      (by omega)).bind ?_
    intro moved k₂ h
    rcases h with ⟨e, hresult⟩ | ⟨hs, rfl, hk₂⟩
    · rw [hresult]
      exact .pure (.inl ⟨e, hresult⟩)
    · have hc₂ : k₂.device.control = some (k.device.begun setup) := by
        rw [hk₂.device]
        exact hc₁
      have hd₂ : if SetupPacket.length.get setup = 0 then
          Direction.toHost = .toHost
          else .toHost = (SetupPacket.direction.get setup).reversed := by
        rw [if_neg hl, hd]
        rfl
      refine (leads_statusStage ?_ hk₂.clean ?_ hc₂ hd₂ False.elim).mono ?_
      · rw [hk₂.device]
        exact hf₁
      · rw [hk₂.device, Device.storing, ← hready₁]
        rfl
      · intro moved k₃ h
        rcases h with ⟨-, herror⟩ | ⟨-, rfl, hk₃⟩
        · exact .inl herror
        · have hdevice : { k₂.device with control := none }.apply setup =
              { k.device.ready.storing (buffer.take total) with
                control := none }.apply setup := by
            rw [hk₂.device, hk₁.device]
            rfl
          refine .inr ⟨rfl, ?_, hk₃.clean, hk₃.device.trans hdevice⟩
          exact hk₁.core.trans (hk₂.core.trans hk₃.core)

/-- A request without data is applied. -/
theorem leads_control_none (hf : k.device.forced = none)
    (hclean : k.Clean .control) (he : 8 ≤ s.ep0MaxPacket.toNat)
    (hl : SetupPacket.length.get setup = 0)
    (hT : T → Reaches clock settings s k ∧
      (k.device.begun setup).stalled = false) :
    Leads T ((hostOn clock settings).control s setup buffer) k fun moved k' =>
      (¬ T ∧ ∃ e, moved.result = .error e) ∨
      moved = ⟨.ok 0, buffer⟩ ∧
        k.device.address = (s.address.setWidth 7).setWidth 8 ∧
        Became k ({ k.device.ready with control := none }.apply setup) k' := by
  have hnone : ¬ 0 <
      min (SetupPacket.length.get setup).toNat buffer.length := by
    rw [hl]
    exact Nat.not_lt_of_le (Nat.min_le_left _ _)
  unfold Host.control
  refine (leads_setup hf hclean he fun ht => (hT ht).1).bind ?_
  intro sent k₁ h
  rcases h with ⟨ht, e, hresult⟩ | ⟨⟨count, hresult⟩, ha, hk₁⟩
  · rw [hresult]
    exact .pure (.inl ⟨ht, e, rfl⟩)
  · rw [hresult]
    dsimp only
    rw [if_neg hnone]
    obtain ⟨hf₁, hready₁, hc₁⟩ := hk₁.begun hf
    have hd₁ : if SetupPacket.length.get setup = 0 then
        Direction.toHost = .toHost
        else .toHost = (SetupPacket.direction.get setup).reversed := by
      rw [if_pos hl]
    refine (leads_statusStage hf₁ hk₁.clean hready₁ hc₁ hd₁
      fun ht => ?_).mono ?_
    · exact ⟨(hT ht).1.step hk₁ rfl (Nat.zero_le _), (hT ht).2⟩
    · intro moved k₂ h
      rcases h with ⟨ht, herror⟩ | ⟨-, rfl, hk₂⟩
      · exact .inl ⟨ht, herror⟩
      · have hdevice : { k₁.device with control := none }.apply setup =
            { k.device.ready with control := none }.apply setup := by
          rw [hk₁.device]
        refine .inr ⟨rfl, ha, ?_, hk₂.clean, hk₂.device.trans hdevice⟩
        exact hk₁.core.trans hk₂.core

end Transfer

end UsbHost.Simulation
