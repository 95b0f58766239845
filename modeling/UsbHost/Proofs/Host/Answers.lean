import UsbHost.Host.Enumeration
import UsbHost.Proofs.Host.Protocol

/-!
# Answers to control transfers

A control transfer that succeeds has filled its buffer from the front.  The
number it reports tells where the answer of the device ends, and nothing behind
that has been touched, on whatever hardware.  So an answer can be told from the
buffer it stands in, however short it is.

## Main results

* `Exchange.Leaves.fills` — an exchange fills its buffer.
* `yields_control_fills` — a control transfer fills its buffer.
* `Moved.Fills.buffer_eq` — an answer in a buffer of zeros.
-/

namespace UsbHost

open Run

variable {σ : Type} {host : Host σ} {ε : Type} {buffer : List Byte}

/-! ## Buffers that are filled -/

/-- A transfer has filled its buffer from the front: as far as it reports, and
not at all behind that. -/
structure Moved.Fills (moved : Moved ε) (buffer : List Byte) : Prop where
  length_eq : moved.buffer.length = buffer.length
  count_le : ∀ count, moved.result = .ok count → count ≤ buffer.length
  rest : ∀ count, moved.result = .ok count →
    moved.buffer.drop count = buffer.drop count

namespace Moved.Fills

/-- An error leaves nothing to be said but the length. -/
theorem of_error {moved : Moved ε} {e : ε} (he : moved.result = .error e)
    (hlength : moved.buffer.length = buffer.length) : moved.Fills buffer := by
  refine ⟨hlength, fun count hr => ?_, fun count hr => ?_⟩
  · rw [he] at hr
    exact nomatch hr
  · rw [he] at hr
    exact nomatch hr

theorem mapError {ε' : Type} {moved : Moved ε} (h : moved.Fills buffer)
    (f : ε → ε') : Fills ⟨moved.result.mapError f, moved.buffer⟩ buffer := by
  have hok : ∀ count, moved.result.mapError f = .ok count →
      moved.result = .ok count := by
    intro count hr
    cases hmoved : moved.result with
    | ok n =>
      rw [hmoved] at hr
      cases hr
      rfl
    | error e =>
      rw [hmoved] at hr
      exact nomatch hr
  exact ⟨h.length_eq, fun count hr => h.count_le count (hok count hr),
    fun count hr => h.rest count (hok count hr)⟩

/-- A packet put back in its place leaves the length of the buffer as it was. -/
theorem length_splice {packet : Moved ε} {current : List Byte} {m size : Nat}
    (h : packet.Fills ((current.take (m + size)).drop m))
    (hsize : m + size ≤ current.length) :
    (current.take m ++ packet.buffer ++ current.drop (m + size)).length =
      current.length := by
  have hlength := h.length_eq
  simp only [List.length_append, List.length_take, List.length_drop] at hlength ⊢
  omega

/-- In a buffer of zeros, an answer is followed by zeros. -/
theorem buffer_eq {moved : Moved ε} {room count : Nat}
    (h : moved.Fills (List.replicate room 0)) (hr : moved.result = .ok count) :
    moved.buffer = moved.buffer.take count ++ List.replicate (room - count) 0 := by
  have hrest : moved.buffer.drop count = List.replicate (room - count) 0 :=
    (h.rest count hr).trans List.drop_replicate
  rw [← hrest, List.take_append_drop]

end Moved.Fills

/-- An exchange fills its buffer. -/
theorem Exchange.Leaves.fills {x : Exchange} {requested room : Nat}
    {moved : Moved TransferError} (h : x.Leaves requested room buffer moved)
    (hroom : room ≤ buffer.length)
    (hsent : x.direction = .toDevice → requested ≤ buffer.length) :
    moved.Fills buffer := by
  have hlength : moved.buffer.length = buffer.length := h.length_eq hroom
  refine ⟨hlength, fun count hr => ?_, fun count hr => ?_⟩
  · obtain ⟨hout, hin⟩ := h.count_eq hr
    cases hx : x.direction with
    | toDevice => exact (hout hx).symm ▸ hsent hx
    | toHost => exact Nat.le_trans (hin hx) hroom
  · unfold Leaves at h
    rw [hr] at h
    cases hx : x.direction with
    | toDevice =>
      rw [hx] at h
      rw [h.2]
    | toHost =>
      rw [hx] at h
      obtain ⟨-, received, hreceived, hbuffer⟩ := h
      rw [hbuffer, List.drop_left' hreceived]

/-! ## Control transfers -/

section Control

variable {s : Link} {direction : Direction}

theorem yields_controlPacket_fills (stage : Stage) (pid : Pid)
    (buffer : List Byte) (w : World Register σ) :
    (host.controlPacket s stage direction pid buffer).Yields False w
      fun packet _ => packet.Fills buffer := by
  refine (Protocol.yields_persist stage ⟨direction, pid, buffer⟩ _ w).mono ?_
  rintro _ w' ⟨steps, moved, -, -, hleaves, rfl⟩
  refine Moved.Fills.mapError (hleaves.fills (Nat.le_refl _) fun hout => ?_) _
  exact Exchange.requested_le _ s hout

/-- On whatever hardware, a control transfer fills its buffer. -/
theorem yields_control_fills (host : Host σ) (s : Link) (setup : SetupPacket)
    (buffer : List Byte) (w : World Register σ) :
    (host.control s setup buffer).Yields False w
      fun moved _ => moved.Fills buffer := by
  refine (Protocol.yields_control_received setup buffer w).mono ?_
  rintro moved w' ⟨steps, hcourse, -, hreceives⟩
  have hroom : min (SetupPacket.length.get setup).toNat buffer.length ≤
      buffer.length := Nat.min_le_right _ _
  refine ⟨hreceives.length_eq hroom, fun count hr => ?_, fun count hr =>
    hreceives.rest hr⟩
  rw [hr] at hcourse
  exact Nat.le_trans (Protocol.controlTransfer_count_le hcourse) hroom

end Control

end UsbHost
