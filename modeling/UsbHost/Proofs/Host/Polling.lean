import UsbHost.Gamepad.Pad
import UsbHost.Proofs.Machine.Yields

/-!
# Running polls

A poll as a program that returns its result together with the state after it.

## Main results

* `Host.run_readReport`, `Gamepad.run_poll` — what a poll does step by step.
* `yields_readReport`, `yields_poll` — a poll changes the toggle at most.
-/

namespace UsbHost

variable {σ : Type}

/-- A poll starts one exchange if there is an endpoint to poll, and moves the
toggle if that succeeds. -/
theorem Host.run_readReport (host : Host σ) (report : List Byte) (s : Link) :
    (host.readReport report).run s =
      (match s.pollable? with
      | none => pure (⟨.error .notEnumerated, report⟩, s)
      | some hid => do
        let moved ← host.transfer s (pollExchange s hid) report
          (min report.length hid.maxPacketSize.toNat)
        match moved.result with
        | .ok count =>
          pure (⟨.ok count, moved.buffer⟩, { s with toggle := !s.toggle })
        | .error cause =>
          pure (⟨.error (.transfer .interrupt cause), moved.buffer⟩, s)) := by
  unfold Host.readReport
  rw [StateT.run_bind, StateT.run_get, pure_bind]
  cases s.pollable? with
  | none => rfl
  | some hid =>
    dsimp only
    rw [StateT.run_bind, StateT.run_monadLift, bind_assoc]
    simp only [pure_bind, monadLift_self]
    congr 1
    funext moved
    cases moved.result <;> rfl

/-- A poll of a pad is a poll for its report. -/
theorem Gamepad.run_poll (pad : Gamepad) (host : Host σ) (s : Link) :
    (pad.poll host).run s = (do
      let (moved, s) ← (host.readReport (List.replicate reportLength 0)).run s
      match moved.result with
      | .ok count =>
        let message ← Run.slice moved.buffer 0 count
        let (update, pad) := pad.receive message
        pure ((.ok update, pad), s)
      | .error e =>
        if e.exchangeError? = some .nak ∨ e.exchangeError? = some .timeout then
          pure ((.ok none, pad), s)
        else pure ((.error e, pad), s)) := by
  unfold Gamepad.poll
  rw [StateT.run_bind]
  congr 1
  funext r
  obtain ⟨moved, s⟩ := r
  cases h : moved.result with
  | ok count =>
    simp only [h]
    rw [StateT.run_bind, StateT.run_monadLift, bind_assoc]
    simp only [pure_bind, monadLift_self]
    rfl
  | error e =>
    simp only [h]
    split <;> rfl

/-! ## The state after a poll -/

variable {host : Host σ} {I : Link → Prop}

/-- A poll changes the toggle at most. -/
theorem yields_readReport (h : ∀ s, I s → I { s with toggle := !s.toggle })
    (report : List Byte) {s : Link} (hs : I s) (w : World Register σ) :
    ((host.readReport report).run s).Yields False w fun r _ => I r.2 := by
  rw [Host.run_readReport]
  cases s.pollable? with
  | none => exact .pure hs
  | some hid =>
    refine .bind_any fun moved w' => ?_
    cases moved.result with
    | ok count => exact .pure (h s hs)
    | error e => exact .pure hs

theorem yields_poll (h : ∀ s, I s → I { s with toggle := !s.toggle })
    (pad : Gamepad) {s : Link} (hs : I s) (w : World Register σ) :
    ((pad.poll host).run s).Yields False w fun r _ => I r.2 := by
  rw [Gamepad.run_poll]
  refine (yields_readReport h _ hs w).bind fun r w' hr => ?_
  dsimp only
  cases r.1.result with
  | ok count => exact .bind_any fun _ _ => .pure hr
  | error e =>
    dsimp only
    split
    · exact .pure hr
    · exact .pure hr

end UsbHost
