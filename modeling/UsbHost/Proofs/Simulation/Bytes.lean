import UsbHost.Proofs.Simulation.Enumeration

/-!
# The bytes of a control transfer

A control transfer that succeeds has moved just the bytes it should, whatever
the packet sizes on both sides and however often packets had to be offered
again.

## Main results

* `control_moves_exactly` — what a successful transfer has moved.
-/

namespace UsbHost.Simulation

variable {τ : Type} {clock : Clock τ} {settings : Settings}

/-- What a successful control transfer with data has moved, from any reachable
state and with any number of refusals.  A request for data puts the front of
the device's answer into the buffer: as much as was asked for and there is room
for, or no more than one packet if the device's packets are smaller than the
host expects.  A request with data has sent the front of the buffer, each byte
once. -/
theorem control_moves_exactly {s : Link} (hs : s.Reachable)
    {setup : SetupPacket} (hlength : SetupPacket.length.get setup ≠ 0)
    {buffer : List Byte} (hbuffer : buffer ≠ []) {patience : Nat}
    {w w' : World Register (Controller × τ)} {moved : Moved UsbError}
    (hforced : w.env.1.device.forced = none) (hstep : w.env.1.InStep)
    (hnone : ∀ entry ∈ w.env.1.rxStatus, ¬ IsDataFor .control entry)
    (hrun : (hostOn clock settings).control s setup buffer patience w =
      .ok moved w') {n : Nat} (hok : moved.result = .ok n) :
    let total := min (SetupPacket.length.get setup).toNat buffer.length
    let e := s.ep0MaxPacket.toNat
    let p := w.env.1.device.packetSize
    match SetupPacket.direction.get setup with
    | .toHost =>
      ∃ response, w.env.1.device.answer? setup = some response ∧
        n = (if e ≤ p then min total response.length
          else min total (min p response.length)) ∧
        moved.buffer = response.take n ++ buffer.drop n
    | .toDevice =>
      n = total ∧ moved.buffer = buffer ∧
        w'.env.1.device.receivedOut =
          w.env.1.device.receivedOut ++ buffer.take total := by
  intro total e p
  have hsize := hs.sized.bounds
  have hclean : w.env.1.Clean .control := ⟨hstep, hnone⟩
  have hpositive : 0 < total := by
    have hbuffer' := List.length_pos_iff.2 hbuffer
    have hlength' : (SetupPacket.length.get setup).toNat ≠ 0 := fun hzero =>
      hlength (BitVec.eq_of_toNat_eq hzero)
    omega
  cases hd : SetupPacket.direction.get setup with
  | toHost =>
    have hlead := (leads_control_in (T := False) hforced hclean
      ⟨hsize.1, by omega⟩ hd rfl hpositive False.elim).of_run rfl hrun
    rcases hlead with ⟨-, e, herror⟩ | ⟨response, hanswer, hm, -⟩
    · rw [hok] at herror
      exact nomatch herror
    · rw [hm] at hok ⊢
      cases hok
      exact ⟨response, hanswer, rfl, rfl⟩
  | toDevice =>
    have hlead := (leads_control_out hforced hclean hsize.1 hd rfl
      hpositive).of_run rfl hrun
    rcases hlead with ⟨e, herror⟩ | ⟨hm, hbecame⟩
    · rw [hok] at herror
      exact nomatch herror
    · rw [hm] at hok ⊢
      cases hok
      refine ⟨rfl, rfl, ?_⟩
      rw [hbecame.device, Device.apply_receivedOut]
      rfl

/-- The gamepad's device descriptor, read in whole from a fresh device. -/
theorem gamepad_descriptor_moved :
    ∃ patience moved w',
      (hostOn (Bench.TickingClock.clock false) {}).control {}
          (.getDescriptor .device 0 18) (List.replicate 18 0) patience
          freshBench = .ok moved w' ∧
        moved.result = .ok 18 ∧
        moved.buffer = gamepadDescriptor.toList := by
  have hreach : Reaches (Bench.TickingClock.clock false) {} {} {} :=
    ⟨Machine.delaysReturn_of_skip _ rfl, rfl, by decide, by decide⟩
  have hclean : freshBench.env.1.Clean .control := ⟨rfl, nofun⟩
  have hlead : Leads True ((hostOn (Bench.TickingClock.clock false) {}).control
      {} (.getDescriptor .device 0 18) (List.replicate 18 0)) {} _ :=
    leads_control_in rfl hclean (by decide) (by decide) rfl (by decide)
      fun _ => ⟨hreach, by decide⟩
  obtain ⟨moved, w', patience, h, hrun⟩ :=
    (hlead freshBench rfl).exists_run trivial
  rcases h with ⟨hfalse, -⟩ | ⟨response, hanswer, hm, -⟩
  · exact absurd trivial hfalse
  · have hresponse : response = gamepadDescriptor.toList :=
      Option.some.inj (hanswer.symm.trans rfl)
    have hok : moved.result = .ok 18 := by
      rw [hm, hresponse]
      rfl
    have hl : SetupPacket.length.get (.getDescriptor .device 0 18) ≠ 0 := by
      decide
    have hb : List.replicate 18 (0 : Byte) ≠ [] := by decide
    have hmoved := control_moves_exactly initial_reachable hl hb rfl hclean.1
      hclean.2 (hrun patience (Nat.le_refl _)) hok
    have hd : SetupPacket.direction.get (.getDescriptor .device 0 18) =
        .toHost := by decide
    rw [hd] at hmoved
    obtain ⟨response', hanswer', -, hbuffer⟩ := hmoved
    have hresponse' : response' = gamepadDescriptor.toList :=
      Option.some.inj (hanswer'.symm.trans rfl)
    refine ⟨patience, moved, w', hrun patience (Nat.le_refl _), hok, ?_⟩
    rw [hbuffer, hresponse']
    rfl

end UsbHost.Simulation
