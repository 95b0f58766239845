import UsbHost.Proofs.Driver.PortLaw
import UsbHost.Proofs.Simulation.Accesses
import UsbHost.Proofs.Simulation.Overlay
import UsbHost.Proofs.Simulation.RootPort

/-!
# The port is never turned off

A write to the port with a one in the enable bit turns it off.  The law of the
port has no such write, so no run of the driver turns the port off, whatever is
read on the way.

## Main results

* `portLaw_le_harmless` — no operation writes a one to the enable bit.
* `port_kept_enabled` — what every run of the driver does to the port.
-/

namespace UsbHost.Simulation

open Run
open scoped Computability

variable {σ : Type}

/-! ## Harmless accesses -/

/-- Accesses of which no write disables the port. -/
def harmless : Language PortAccess :=
  {t | ∀ v, .write v ∈ t → v.getLsbD 2 = false}

theorem mul_le_harmless {L M : Language PortAccess} (hL : L ≤ harmless)
    (hM : M ≤ harmless) : L * M ≤ harmless := by
  intro t ht v hv
  obtain ⟨s, hs, u, hu, rfl⟩ := Language.mem_mul.1 ht
  rcases List.mem_append.1 hv with hv | hv
  · exact hL hs v hv
  · exact hM hu v hv

theorem one_le_harmless : 1 ≤ harmless := by
  intro t ht v hv
  obtain rfl : t = [] := ht
  exact nomatch hv

theorem kstar_le_harmless {L : Language PortAccess} (hL : L ≤ harmless) :
    L∗ ≤ harmless := by
  intro t ht v hv
  obtain ⟨words, rfl, hwords⟩ := Language.mem_kstar.1 ht
  obtain ⟨word, hword, hv⟩ := List.mem_flatten.1 hv
  exact hL (hwords word hword) v hv

theorem look_le_harmless (shows : Word → Prop) : look shows ≤ harmless := by
  rintro t ⟨u, -, rfl⟩ v hv
  simp at hv

theorem rewrite_le_harmless (p : PortPurpose) : rewrite p ≤ harmless := by
  rintro t ⟨before, value, hp, rfl⟩ v hv
  obtain rfl : v = value := by simpa using hv
  exact hp.enable

/-- No operation disables the port. -/
theorem portLaw_le_harmless (operation : Operation σ) :
    operation.portLaw ≤ harmless := by
  have hlook := look_le_harmless
  have hrewrite := rewrite_le_harmless
  have hpoll : pollPort ≤ harmless :=
    add_le (hlook _) (mul_le_harmless (hlook _) (hrewrite _))
  have hreset : busReset ≤ harmless := by
    refine add_le (hlook _) (mul_le_harmless
      (mul_le_harmless (hlook _) (hrewrite _)) ?_)
    refine add_le one_le_harmless (mul_le_harmless (hrewrite _) ?_)
    refine add_le one_le_harmless (mul_le_harmless (hrewrite _) ?_)
    exact kstar_le_harmless hpoll
  have hpower : 1 + rewrite .power ≤ harmless :=
    add_le one_le_harmless (hrewrite _)
  have hmaybe : 1 + busReset ≤ harmless := add_le one_le_harmless hreset
  cases operation with
  | isConnected => exact hlook _
  | awaitDevice timeout => exact kstar_le_harmless (hlook _)
  | init power => exact hpower
  | resetBus => exact hreset
  | enumerate => exact hmaybe
  | start power timeout =>
    exact mul_le_harmless (mul_le_harmless
      (mul_le_harmless hpower (kstar_le_harmless (hlook _))) hmaybe) hmaybe
  | _ => exact one_le_harmless

theorem prod_le_harmless (operations : List (Operation σ)) :
    (operations.map Operation.portLaw).prod ≤ harmless := by
  induction operations with
  | nil => exact one_le_harmless
  | cons operation rest ih =>
    rw [List.map_cons, List.prod_cons]
    exact mul_le_harmless (portLaw_le_harmless operation) ih

/-! ## The port of the simulated core -/

section Port

variable (k : Controller)

theorem port_read (r : Register) : (k.read r).2.port = k.port := by
  cases r <;> rfl

/-- Only a write to the port changes its state. -/
theorem port_write {r : Register} (hr : r ≠ .port) (v : Word) :
    (k.write r v).port = k.port := by
  rcases write_cases hr v with hstill | ⟨k₁, t, hstill, hk⟩
  · exact hstill.port
  · rw [hk, (execute_cases t).1]
    exact hstill.port

/-- A write without a one in the enable bit does not turn the port off. -/
theorem disabledByWrite_writePort {v : HostPort}
    (hv : HostPort.enabled.get v = false) :
    (k.writePort v).port.disabledByWrite = k.port.disabledByWrite := by
  unfold Controller.writePort
  simp only [hv]
  split
  · exact Bool.or_false _
  · split
    · exact Bool.or_false _
    · exact Bool.or_false _

end Port

/-! ## Every run -/

/-- No write to the port has ever turned it off. -/
def Undisabled (k : Controller) : Prop := k.port.disabledByWrite = false

/-- Whatever is read, no access of the driver turns the port off. -/
theorem withstandsAll_undisabled {host : Host σ}
    {view : σ → Option Controller} {genuine : Register → Prop}
    (h : Overlay host.core view genuine) :
    host.WithstandsAll (Shows view Undisabled) := by
  have hread : ∀ r, Preserves (Shows view Undisabled) (host.core.read r) := by
    refine fun r => h.preserves_read fun k hk => ?_
    unfold Undisabled
    rw [port_read]
    exact hk
  have hport : ∀ v : HostPort, HostPort.enabled.get v = false →
      Preserves (Shows view Undisabled) (host.core.store .port v) :=
    fun v hv => h.preserves_write fun k hk =>
      (disabledByWrite_writePort _ hv).trans hk
  have hload : Preserves (Shows view Undisabled) (host.core.load .port) :=
    (hread .port).bind fun _ => .pure _
  exact
    { toTimeless := h.timeless _
      barrier := h.preserves_barrier _
      read := fun r _ => hread r
      write := fun r v hr => h.preserves_write fun k hk => by
        unfold Undisabled
        rw [port_write k hr]
        exact hk
      drain := Host.preserves_drain fun r _ => hread r
      readPort := hread .port
      updatePort := fun change => hload.bind fun port =>
        hport _ (apply_fields change port).1
      acknowledgePort := fun changes => hload.bind fun port =>
        hport _ (quiet_fields port changes).1 }

/-- Every run of the driver, however it ends, makes just the accesses to the
port that the operations it begins are allowed, in their order; none of its
writes disables the port; and a simulated core behind the bus, whatever is read
in its place, is never turned off. -/
theorem port_kept_enabled (host : Host σ) (operations : List (Operation σ))
    (hpower : ∀ operation ∈ operations, ∀ S,
      operation.PowerPreserves (Within S))
    (driver : Driver) (patience : Nat) (w : World Register σ) :
    let run := driver.performAll host operations
    (∃ n t,
      (run.leaves patience w).portAccesses = w.portAccesses ++ t ∧
      t ∈ ((operations.take n).map Operation.portLaw).prod ∧
      (∀ r w', run patience w = .ok r w' → operations.length ≤ n) ∧
      ∀ v, .write v ∈ t → v.getLsbD 2 = false) ∧
    ∀ view genuine, Overlay host.core view genuine →
      (∀ operation ∈ operations,
        operation.PowerPreserves (Shows view Undisabled)) →
      Shows view Undisabled w →
      Shows view Undisabled (run.leaves patience w) := by
  intro run
  have hstart : Within {w.portAccesses} w := rfl
  have hlaw : run.Always w _ _ := lawful_performAll hpower driver hstart
  have hadded : ∀ {L : Language PortAccess} {w' : World Register σ},
      L ≤ harmless → Within ({w.portAccesses} * L) w' →
      ∃ t, w'.portAccesses = w.portAccesses ++ t ∧ t ∈ L ∧
        ∀ v, .write v ∈ t → v.getLsbD 2 = false := by
    intro L w' hL hw'
    obtain ⟨_, rfl, t, ht, happend⟩ := Language.mem_mul.1 hw'
    exact ⟨t, happend.symm, ht, fun v hv => hL ht v hv⟩
  constructor
  · unfold Run.leaves
    cases hrun : run patience w with
    | ok r w' =>
      have hends := hlaw.ok patience r w' hrun
      obtain ⟨t, ht, hlawful, henabled⟩ :=
        hadded (prod_le_harmless operations) hends
      refine ⟨operations.length, t, ht, ?_, fun _ _ _ => le_rfl, henabled⟩
      rwa [List.take_length]
    | error e w' =>
      obtain ⟨n, hends⟩ := hlaw.error patience e w' hrun
      obtain ⟨t, ht, hlawful, henabled⟩ :=
        hadded (prod_le_harmless (operations.take n)) hends
      exact ⟨n, t, ht, hlawful, fun _ _ hr => (nomatch hr), henabled⟩
  · intro view genuine h hpower' hw
    exact ((withstandsAll_undisabled h).performAll hpower' driver).leaves hw
      patience

/-- A bench whose port reads as all ones: a device is there, the port is
enabled, and every change is reported. -/
def stubbornPort : World Register (Bench.Environment × Bench.TickingClock) :=
  ⟨({ overrides := { sticky := [(0x440, 0xFFFFFFFF)] } }, {}), []⟩

/-- A reset of such a port acknowledges everything once and the enabling once
more, and turns nothing off. -/
theorem stubborn_port_kept :
    let host : Host (Bench.Environment × Bench.TickingClock) :=
      ⟨Bench.machine false, {}⟩
    let left := (Driver.performAll host {} [.resetBus]).leaves 2 stubbornPort
    left.portAccesses =
        [.read 0xFFFFFFFF,
          .read 0xFFFFFFFF, .write 0xFFFFFFFB,
          .read 0xFFFFFFFF, .write 0xFFFFFFD1,
          .read 0xFFFFFFFF, .write 0xFFFFFED1,
          .read 0xFFFFFFFF, .read 0xFFFFFFFF, .write 0xFFFFFFD9] ∧
      left.portAccesses ∈ busReset ∧
      Shows (benchView fun r => r ≠ .port) Undisabled left := by
  intro host left
  obtain ⟨⟨n, t, happend, ht, hn, -⟩, hkept⟩ :=
    port_kept_enabled host [.resetBus]
      (fun operation ho S => by
        obtain rfl := List.mem_singleton.1 ho
        trivial)
      {} 2 stubbornPort
  have hreturns : (Driver.performAll host {} [.resetBus]).returns 2 stubbornPort
      (fun _ _ => true) = true := by decide +kernel
  obtain ⟨r, w', hrun, -⟩ := Run.exists_of_returns hreturns
  have hlength : 1 ≤ n := hn r w' hrun
  have hlaw : t ∈ busReset := by
    rw [List.take_of_length_le hlength] at ht
    simpa [Operation.portLaw] using ht
  refine ⟨by decide +kernel, ?_, ?_⟩
  · exact happend ▸ hlaw
  · refine hkept _ _ (.bench false _) (fun operation ho => ?_)
      ⟨{}, benchView_eq_some_iff.2 ⟨rfl, fun r hr => ?_⟩, rfl⟩
    · obtain rfl := List.mem_singleton.1 ho
      trivial
    · have hne : r.offset ≠ 0x440 :=
        fun h => hr (Register.offset_injective (s := .port) h)
      exact take?_eq_none_iff.2 ⟨nofun, by simp [stubbornPort, hne]⟩

end UsbHost.Simulation
