import UsbHost.Simulation.Controller

/-!
# What one access does

Most accesses change registers of the core and nothing else.  What happens on
the bus, to the port and to the receive queue comes from few of them: a write
can put a transaction on the bus, the port is changed by its own register, and
the queue is taken from by two.

## Main results

* `write_cases` — a write apart from the port's changes registers, or puts one
  transaction on the bus.
* `execute_cases` — a transaction changes the device as it responds, and queues
  what it acknowledges with data.
* `read_still` — a reading apart from the queue's changes nothing else.
-/

namespace UsbHost.Simulation

/-- The two controllers have the same port, device and receive queue. -/
structure Still (k k' : Controller) : Prop where
  port : k'.port = k.port
  device : k'.device = k.device
  rxStatus : k'.rxStatus = k.rxStatus
  rxFifo : k'.rxFifo = k.rxFifo

namespace Still

variable {k k' k'' : Controller}

theorem refl (k : Controller) : Still k k := ⟨rfl, rfl, rfl, rfl⟩

theorem trans (h : Still k k') (h' : Still k' k'') : Still k k'' :=
  ⟨h'.port.trans h.port, h'.device.trans h.device,
    h'.rxStatus.trans h.rxStatus, h'.rxFifo.trans h.rxFifo⟩

theorem updateChannel (h : Still k k') (c : Channel)
    (f : ChannelState → ChannelState) : Still k (k'.updateChannel c f) :=
  ⟨h.port, h.device, h.rxStatus, h.rxFifo⟩

theorem counted (h : Still k k') (writes : Nat) :
    Still k { k' with writes } :=
  ⟨h.port, h.device, h.rxStatus, h.rxFifo⟩

end Still

variable {k : Controller}

/-! ## Writes -/

/-- The controller changes registers only, or puts one transaction on the
bus. -/
def Transacts (k k' : Controller) : Prop :=
  Still k k' ∨ ∃ k₁ t, Still k k₁ ∧ k' = k₁.execute t

theorem transacts_writeChannel {k' : Controller} (h : Still k k')
    (c : Channel) (r : ChannelRegister) (v : Word) :
    Transacts k (k'.writeChannel c r v) := by
  cases r with
  | characteristics =>
    unfold Controller.writeChannel
    dsimp only
    split
    · exact .inl (h.updateChannel c _)
    · split
      · unfold Controller.enable
        dsimp only
        split
        · exact .inl ⟨h.port, h.device, h.rxStatus, h.rxFifo⟩
        · exact .inr ⟨_, _, (h.updateChannel c _).updateChannel c _, rfl⟩
      · exact .inl (h.updateChannel c _)
  | splitControl => exact .inl ⟨h.port, h.device, h.rxStatus, h.rxFifo⟩
  | interrupts => exact .inl ⟨h.port, h.device, h.rxStatus, h.rxFifo⟩
  | interruptMask => exact .inl ⟨h.port, h.device, h.rxStatus, h.rxFifo⟩
  | transferSize => exact .inl ⟨h.port, h.device, h.rxStatus, h.rxFifo⟩

theorem transacts_pushWord {k' : Controller} (h : Still k k') (c : Channel)
    (word : Word) : Transacts k (k'.pushWord c word) := by
  have hwaiting : ∀ pendingOut, Still k { k' with pendingOut } :=
    fun _ => ⟨h.port, h.device, h.rxStatus, h.rxFifo⟩
  unfold Controller.pushWord
  split
  · exact .inl h
  · split
    · dsimp only
      split
      · exact .inl (hwaiting _)
      · exact .inr ⟨_, _, hwaiting _, rfl⟩
    · exact .inl h

/-- A write to any register but the port changes registers only, or puts one
transaction on the bus. -/
theorem write_cases {r : Register} (hr : r ≠ .port) (v : Word) :
    Transacts k (k.write r v) := by
  have hcounted := (Still.refl k).counted (k.writes + 1)
  cases r with
  | port => exact absurd rfl hr
  | channel c r => exact transacts_writeChannel hcounted c r v
  | fifo c => exact transacts_pushWord hcounted c v
  | _ => exact .inl ⟨rfl, rfl, rfl, rfl⟩

/-- Only the characteristics of a channel put anything on the bus. -/
theorem still_writeChannel (c : Channel) {r : ChannelRegister} (v : Word)
    (hr : r ≠ .characteristics) :
    Still k (k.write (.channel c r) v) := by
  cases r with
  | characteristics => exact absurd rfl hr
  | _ => exact ⟨rfl, rfl, rfl, rfl⟩

/-- Disabling a channel puts nothing on the bus. -/
theorem still_disable (c : Channel) (chars : ChannelCharacteristics) :
    Still k (k.write (.channel c .characteristics)
      (ChannelCharacteristics.disable.set true chars).raw) := by
  have hdisable : ChannelCharacteristics.disable.get
      (ChannelCharacteristics.disable.set true chars) = true :=
    BitField.get_set _ _ _
  simp only [Controller.write, Controller.writeChannel]
  rw [if_pos hdisable]
  exact ⟨rfl, rfl, rfl, rfl⟩

/-! ## Transactions -/

/-- A transaction leaves the port alone, and changes the device as it responds.
What is acknowledged with data for the host is queued, and nothing else is. -/
theorem execute_cases (t : Transaction) :
    (k.execute t).port = k.port ∧
      (k.execute t).device = (k.device.respond t).2 ∧
      ((∃ data, (k.device.respond t).1 = .ack data ∧ t.direction = .toHost ∧
          (k.execute t).rxStatus = k.rxStatus ++
            [queueEntry (BitVec.ofNat 4 t.channel.val) data.length .inData,
              queueEntry (BitVec.ofNat 4 t.channel.val) 0
                .inTransferComplete] ∧
          (k.execute t).rxFifo = k.rxFifo ++ packetWords data) ∨
        (∀ data, (k.device.respond t).1 = .ack data →
          t.direction = .toDevice) ∧
        (k.execute t).rxStatus = k.rxStatus ∧
        (k.execute t).rxFifo = k.rxFifo) := by
  unfold Controller.execute
  cases hr : k.device.respond t with
  | mk response device =>
    dsimp only
    split
    next _ _ data hdirection =>
      refine ⟨rfl, rfl, .inl ⟨data, rfl, hdirection, ?_, rfl⟩⟩
      exact List.append_assoc _ _ _
    next hout =>
      refine ⟨rfl, rfl, .inr ⟨fun data hack => ?_, rfl, rfl⟩⟩
      cases hd : t.direction with
      | toDevice => rfl
      | toHost => exact absurd hd (hout data hack)

/-! ## Readings -/

/-- A reading that takes nothing off the queue changes nothing but the count of
frames. -/
theorem read_still {r : Register} (hstatus : r ≠ .rxStatusPop)
    (hfifo : ∀ c, r ≠ .fifo c) : Still k (k.read r).2 := by
  cases r with
  | rxStatusPop => exact absurd rfl hstatus
  | fifo c => exact absurd rfl (hfifo c)
  | _ => exact ⟨rfl, rfl, rfl, rfl⟩

end UsbHost.Simulation
