import Mathlib.Computability.Language
import Mathlib.Order.CompletePartialOrder
import UsbHost.Proofs.Driver.Withstands

/-!
# The law of the port register

The port register mixes control bits with bits that change something when they
are written as one.  So each write has to come from the value read immediately
before it, with every bit of the second kind cleared that the write is not
about.  For each operation, a language over reads and writes of the port tells
which accesses it makes; any run of the driver, on any hardware, makes the
accesses of the operations it begins, one after another.

## Main results

* `change_writes`, `acknowledge_writes` — what the two ways of writing the port
  write.
* `lawful_resetBus`, `lawful_init`, `lawful_perform` — the accesses of each
  operation, whatever becomes of it.
* `lawful_performAll` — the accesses of any sequence of operations.
-/

namespace UsbHost

open Run
open scoped Computability

variable {σ α β : Type} {host : Host σ}

/-! ## Writes -/

/-- The bits that tell of a change and acknowledge it when written as one. -/
def HostPort.changeBits : List Nat := [1, 3, 5]

/-- What the driver writes the port for. -/
inductive PortPurpose where
  | power
  /-- Acknowledges every change before a reset. -/
  | acknowledge
  | beginReset
  | endReset
  /-- Acknowledges that the port has come up. -/
  | acknowledgeEnabled
deriving DecidableEq

namespace PortPurpose

/-- The change bits that a write acknowledges. -/
def acknowledged : PortPurpose → List Nat
  | acknowledge => HostPort.changeBits
  | acknowledgeEnabled => [3]
  | _ => []

/-- The control bit that a write gives a value of its own. -/
def control? : PortPurpose → Option (Nat × Bool)
  | power => some (12, true)
  | beginReset => some (8, true)
  | endReset => some (8, false)
  | _ => none

/-- `value` may be written for this purpose if the port has just been read as
`before`: it does not disable the port, acknowledges what it is meant to, and
is what was read in all other bits but the one it is about. -/
structure Writes (p : PortPurpose) (before value : Word) : Prop where
  enable : value.getLsbD 2 = false
  changes : ∀ i ∈ HostPort.changeBits,
    value.getLsbD i = decide (i ∈ p.acknowledged)
  control : ∀ i b, p.control? = some (i, b) → value.getLsbD i = b
  rest : ∀ i, i ≠ 2 → i ∉ HostPort.changeBits →
    (∀ b, p.control? ≠ some (i, b)) → value.getLsbD i = before.getLsbD i

theorem acknowledged_subset (p : PortPurpose) :
    ∀ i ∈ p.acknowledged, i ∈ HostPort.changeBits := by
  cases p with
  | acknowledge => exact fun _ hi => hi
  | acknowledgeEnabled => decide
  | _ => exact fun _ hi => nomatch hi

end PortPurpose

/-- The register without the bits that change something when written. -/
theorem getLsbD_quiet (v : Word) (i : Nat) :
    (HostPort.quiet ⟨v⟩).raw.getLsbD i =
      (v.getLsbD i && decide (i ≠ 2 ∧ i ∉ HostPort.changeBits)) := by
  have hmask : ∀ i < 32, (~~~HostPort.writeOneToClear).getLsbD i =
      decide (i ≠ 2 ∧ i ∉ HostPort.changeBits) := by decide
  show (v &&& ~~~HostPort.writeOneToClear).getLsbD i = _
  rw [BitVec.getLsbD_and]
  by_cases hi : i < 32
  · rw [hmask i hi]
  · rw [BitVec.getLsbD_of_ge v i (by omega), Bool.false_and, Bool.false_and]

/-- Acknowledging changes writes what was read and ones for the changes. -/
theorem acknowledge_writes {p : PortPurpose} {changes : PortChanges}
    (hp : p.control? = none)
    (hbits : ∀ i < 32, changes.bits.getLsbD i = decide (i ∈ p.acknowledged))
    (v : Word) : p.Writes v ((HostPort.quiet ⟨v⟩).raw ||| changes.bits) := by
  have hbit : ∀ i, ((HostPort.quiet ⟨v⟩).raw ||| changes.bits).getLsbD i =
      (v.getLsbD i && decide (i ≠ 2 ∧ i ∉ HostPort.changeBits) ||
        decide (i ∈ p.acknowledged)) := by
    intro i
    rw [BitVec.getLsbD_or, getLsbD_quiet]
    by_cases hi : i < 32
    · rw [hbits i hi]
    · have hout : i ∉ p.acknowledged := by
        intro h
        have hin := p.acknowledged_subset i h
        simp only [HostPort.changeBits, List.mem_cons, List.not_mem_nil,
          or_false] at hin
        omega
      rw [BitVec.getLsbD_of_ge changes.bits i (by omega),
        decide_eq_false hout]
  have hout : ∀ i, i ∉ HostPort.changeBits → i ∉ p.acknowledged :=
    fun i hi h => hi (p.acknowledged_subset i h)
  constructor
  · rw [hbit, decide_eq_false (hout 2 (by decide))]
    simp
  · intro i hi
    simp [hbit, hi]
  · intro i b h
    rw [hp] at h
    exact nomatch h
  · intro i h2 hi _
    simp [hbit, h2, hi, hout i hi]

/-- Changing a control bit writes what was read and that bit. -/
theorem change_writes {p : PortPurpose} {lo : Nat} {b : Bool}
    (fits : lo + 1 ≤ 32) (hp : p.control? = some (lo, b))
    (hack : p.acknowledged = []) (hlo : lo ≠ 2 ∧ lo ∉ HostPort.changeBits)
    (v : Word) :
    p.Writes v ((BitField.flag lo fits : BitField HostPort Bool).set b
      (HostPort.quiet ⟨v⟩)).raw := by
  have hbit : ∀ i, ((BitField.flag lo fits : BitField HostPort Bool).set b
      (HostPort.quiet ⟨v⟩)).raw.getLsbD i =
        if i = lo then b
        else v.getLsbD i && decide (i ≠ 2 ∧ i ∉ HostPort.changeBits) := by
    intro i
    refine (BitField.getLsbD_set
      (BitField.flag lo fits : BitField HostPort Bool) b _ i).trans ?_
    have hcovers :
        (BitField.flag lo fits : BitField HostPort Bool).Covers i ↔ i = lo := by
      show lo ≤ i ∧ i < lo + 1 ↔ i = lo
      omega
    simp only [hcovers]
    by_cases hi : i = lo
    · rw [if_pos hi, if_pos hi, hi]
      show (BitVec.ofBool b).getLsbD (lo - lo) = b
      rw [Nat.sub_self]
      cases b <;> rfl
    · rw [if_neg hi, if_neg hi]
      exact getLsbD_quiet v i
  constructor
  · rw [hbit, if_neg (Ne.symm hlo.1)]
    simp
  · intro i hi
    have hne : i ≠ lo := fun e => hlo.2 (e ▸ hi)
    simp [hbit, hne, hi, hack]
  · intro i b' h
    rw [hp] at h
    cases h
    simp [hbit]
  · intro i h2 hi h
    have hne : i ≠ lo := fun e => h b (e ▸ hp)
    simp [hbit, hne, h2, hi]

/-! ## Accesses -/

/-- An access to the port register, with the value read or written. -/
inductive PortAccess where
  | read (value : Word)
  | write (value : Word)
deriving DecidableEq

/-- The access to the port that an event is, if it is one. -/
def Event.portAccess? : Event Register → Option PortAccess
  | .read .port v => some (.read v)
  | .write .port v => some (.write v)
  | _ => none

/-- The accesses to the port so far, in order. -/
def World.portAccesses (w : World Register σ) : List PortAccess :=
  (w.log.filterMap Event.portAccess?).reverse

theorem portAccesses_cons (env env' : σ) (e : Event Register)
    (log : List (Event Register)) :
    World.portAccesses ⟨env, e :: log⟩ =
      World.portAccesses ⟨env', log⟩ ++ e.portAccess?.toList := by
  unfold World.portAccesses
  rw [List.filterMap_cons]
  cases e.portAccess? with
  | none => simp
  | some a => simp

/-- The port is read, and shows a value of some kind. -/
def look (shows : Word → Prop) : Language PortAccess :=
  {t | ∃ v, shows v ∧ t = [.read v]}

/-- The port is read and at once written for a purpose. -/
def rewrite (p : PortPurpose) : Language PortAccess :=
  {t | ∃ before value, p.Writes before value ∧
    t = [.read before, .write value]}

/-- One look at a port that is to come up; that it has changed is
acknowledged. -/
def pollPort : Language PortAccess :=
  look (fun v => v.getLsbD 3 = false) +
    look (fun v => v.getLsbD 3 = true) * rewrite .acknowledgeEnabled

/-- A bus reset: nothing happens without a device; otherwise all changes are
acknowledged, the reset is begun and ended, and the port is polled until it is
up.  It may be cut short in any pause. -/
def busReset : Language PortAccess :=
  look (fun v => v.getLsbD 0 = false) +
    look (fun v => v.getLsbD 0 = true) * rewrite .acknowledge *
      (1 + rewrite .beginReset * (1 + rewrite .endReset * pollPort∗))

/-- The accesses that an operation makes to the port. -/
def Operation.portLaw : Operation σ → Language PortAccess
  | .isConnected => look fun _ => True
  | .awaitDevice _ => (look fun _ => True)∗
  | .init _ => 1 + rewrite .power
  | .resetBus => busReset
  | .enumerate => 1 + busReset
  | .start _ _ =>
    (1 + rewrite .power) * (look fun _ => True)∗ * (1 + busReset) *
      (1 + busReset)
  | _ => 1

/-! ## Programs that keep the law -/

/-- The accesses so far belong to a language. -/
def Within (L : Language PortAccess) (w : World Register σ) : Prop :=
  w.portAccesses ∈ L

/-- Whatever becomes of the program, its accesses to the port belong to `L`. -/
def Lawful (p : Run Register σ α) (L : Language PortAccess) : Prop :=
  ∀ S w, Within S w → p.Always w (fun _ => Within (S * L)) (Within (S * L))

theorem Within.mono {L M : Language PortAccess} {w : World Register σ}
    (h : Within L w) (hLM : L ≤ M) : Within M w :=
  hLM h

theorem Within.quiet {L : Language PortAccess} {w : World Register σ}
    (h : Within L w) {env : σ} {e : Event Register}
    (he : e.portAccess? = none) : Within L ⟨env, e :: w.log⟩ := by
  unfold Within
  rw [portAccesses_cons env w.env, he]
  exact (List.append_nil _).symm ▸ h

/-- Nothing but an access to the port itself has to do with the law. -/
theorem withstands_within (host : Host σ) (L : Language PortAccess) :
    host.Withstands (Within L) := by
  have hread : ∀ r, r ≠ .port → Preserves (Within L) (host.core.read r) := by
    intro r hr w hw
    refine .of_eq (fun _ => rfl) (hw.quiet ?_)
    cases r with
    | port => exact absurd rfl hr
    | _ => rfl
  refine
    { now := fun w hw => .of_eq (fun _ => rfl) (hw.quiet rfl)
      skip := fun f d w _ hw => hw.quiet rfl
      barrier := fun w hw => .of_eq (fun _ => rfl) (hw.quiet rfl)
      read := fun r hr => hread r fun e => by subst e; exact hr
      write := fun r v hr w hw => .of_eq (fun _ => rfl) (hw.quiet ?_)
      drain := Host.preserves_drain hread }
  cases r with
  | port => exact absurd rfl hr
  | _ => rfl

namespace Lawful

variable {p : Run Register σ α} {f : α → Run Register σ β}
  {L M : Language PortAccess}

theorem mono (h : Lawful p L) (hLM : L ≤ M) : Lawful p M := by
  intro S w hw
  have hle : S * L ≤ S * M := mul_le_mul_right hLM S
  have hends := (h S w hw).mono fun _ w' (h' : Within _ w') => h'.mono hle
  exact hends.weaken fun w' h' => h'.mono hle

/-- A program that has nothing to do with the port. -/
theorem of_preserves (h : ∀ S, Preserves (Within S) p) : Lawful p 1 := by
  intro S w hw
  rw [mul_one]
  exact h S w hw

theorem pure (a : α) : Lawful (Pure.pure a : Run Register σ α) 1 :=
  of_preserves fun _ => .pure a

/-- One program after another; the second one may make no access, since the
first may stop. -/
theorem bind (hp : Lawful p L) (hf : ∀ a, Lawful (f a) M) (hM : 1 ≤ M) :
    Lawful (p >>= f) (L * M) := by
  intro S w hw
  have hstop : S * L ≤ S * (L * M) :=
    mul_le_mul_right (le_mul_of_one_le_right' hM) S
  refine ((hp S w hw).weaken fun w' h' => h'.mono hstop).bind ?_
  intro a w' hw'
  rw [← mul_assoc]
  exact hf a (S * L) w' hw'

/-- A program that has nothing to do with the port, and what follows. -/
theorem before (hp : Lawful p 1) (hf : ∀ a, Lawful (f a) M) (hM : 1 ≤ M) :
    Lawful (p >>= f) M := by
  have h := hp.bind hf hM
  rwa [one_mul] at h

/-- What follows has nothing to do with the port. -/
theorem after (hp : Lawful p L) (hf : ∀ a, Lawful (f a) 1) :
    Lawful (p >>= f) L := by
  have h := hp.bind hf le_rfl
  rwa [mul_one] at h

/-- Each round of a loop makes its accesses. -/
theorem loop {body : β → Run Register σ (β ⊕ α)}
    (hbody : ∀ b, Lawful (body b) L) (b : β) :
    Lawful (Run.loop body b) L∗ := by
  intro S w hw
  have hround : S * L∗ * L ≤ S * L∗ := by
    rw [mul_assoc]
    exact mul_le_mul_right kstar_mul_le_kstar S
  refine .loop (fun _ => Within (S * L∗)) (fun _ _ h => h) ?_
    (hw.mono (le_mul_of_one_le_right' one_le_kstar))
  intro b w hw
  have hends := (hbody b _ w hw).mono (R := Always.Round
    (fun _ => Within (S * L∗)) fun _ => Within (S * L∗)) fun r w' h' => ?_
  · exact hends.weaken fun w' h' => h'.mono hround
  · cases r with
    | inl b' => exact Within.mono h' hround
    | inr a => exact Within.mono h' hround

end Lawful

/-! ## Accesses to the port -/

section Steps

variable {S L M : Language PortAccess}

/-- What is added to the accesses so far. -/
theorem Within.append {w w' : World Register σ} {t : List PortAccess}
    (h : Within S w) (ht : t ∈ L)
    (hw : w'.portAccesses = w.portAccesses ++ t) : Within (S * L) w' := by
  unfold Within
  rw [hw]
  exact Language.append_mem_mul h ht

/-- A look at the port, and what depends on it. -/
theorem lawful_loadPort {f : HostPort → Run Register σ α}
    {M : Word → Language PortAccess} (hf : ∀ v, Lawful (f ⟨v⟩) (M v))
    (hL : ∀ v, {[.read v]} * M v ≤ L) :
    Lawful (host.core.load .port >>= f) L := by
  intro S w hw
  have hread : (host.core.load .port).Always w
      (fun port => Within (S * {[.read port.raw]})) (Within (S * L)) :=
    .of_eq (fun _ => rfl) (hw.append rfl (portAccesses_cons _ _ _ _))
  refine hread.bind fun port w' hw' => ?_
  have hle : S * {[.read port.raw]} * M port.raw ≤ S * L := by
    rw [mul_assoc]
    exact mul_le_mul_right (hL port.raw) S
  have hends := (hf port.raw _ w' hw').mono
    fun _ w'' (h'' : Within _ w'') => h''.mono hle
  exact hends.weaken fun w'' h'' => h''.mono hle

theorem lawful_rewrite {p : PortPurpose} {value : Word → Word}
    {q : Run Register σ Unit}
    (hq : ∀ n w, ∃ v env, q n w =
      .ok () ⟨env, .write .port (value v) :: .read .port v :: w.log⟩)
    (hp : ∀ v, p.Writes v (value v)) : Lawful q (rewrite p) := by
  intro S w hw
  have hends : ∀ n w', q n w = .ok () w' → Within (S * rewrite p) w' := by
    intro n w' hr
    obtain ⟨v, env, hv⟩ := hq n w
    rw [hv] at hr
    cases hr
    refine hw.append ⟨v, value v, hp v, rfl⟩ ?_
    rw [portAccesses_cons env env, portAccesses_cons env w.env,
      List.append_assoc]
    rfl
  constructor
  · exact fun n _ w' hr => hends n w' hr
  · intro n e w' hr
    obtain ⟨v, env, hv⟩ := hq n w
    rw [hv] at hr
    exact nomatch hr

theorem lawful_updatePort {p : PortPurpose} {change : PortControl}
    (hp : ∀ v, p.Writes v (change.apply (HostPort.quiet ⟨v⟩)).raw) :
    Lawful (host.core.updatePort change) (rewrite p) :=
  lawful_rewrite (fun _ _ => ⟨_, _, rfl⟩) hp

theorem lawful_acknowledgePort {p : PortPurpose} {changes : PortChanges}
    (hp : ∀ v, p.Writes v ((HostPort.quiet ⟨v⟩).raw ||| changes.bits)) :
    Lawful (host.core.acknowledgePort changes) (rewrite p) :=
  lawful_rewrite (fun _ _ => ⟨_, _, rfl⟩) hp

end Steps

/-! ## Waiting on the port -/

theorem lawful_delay (d : Duration) : Lawful (host.core.delay d) 1 :=
  .of_preserves fun S => (withstands_within host S).delay d

/-- Whatever depends on one look at the port. -/
theorem lawful_isConnected_bind {f : Bool → Run Register σ α}
    {M : Bool → Language PortAccess} {L : Language PortAccess}
    (hf : ∀ b, Lawful (f b) (M b))
    (hL : ∀ b, look (fun v => v.getLsbD 0 = b) * M b ≤ L) :
    Lawful (host.isConnected >>= f) L := by
  unfold Host.isConnected
  rw [bind_assoc]
  have hconnected : ∀ v : Word,
      HostPort.connected.get (⟨v⟩ : HostPort) = v.getLsbD 0 :=
    fun v => BitField.get_flag _ _
  refine lawful_loadPort (M := fun v => M (v.getLsbD 0)) (fun v => ?_)
    fun v => ?_
  · rw [pure_bind, hconnected]
    exact hf _
  · refine le_trans (mul_le_mul_left ?_ _) (hL (v.getLsbD 0))
    intro t ht
    exact ⟨v, rfl, ht⟩

theorem lawful_isConnected :
    Lawful host.isConnected (look fun _ => True) := by
  rw [← bind_pure host.isConnected]
  refine lawful_isConnected_bind (M := fun _ => 1) (fun b => .pure b) ?_
  intro b t ht
  rw [mul_one] at ht
  obtain ⟨v, -, rfl⟩ := ht
  exact ⟨v, trivial, rfl⟩

theorem lawful_awaitDevice (timeout : Duration) :
    Lawful (host.awaitDevice timeout) (look fun _ => True)∗ := by
  have hquiet := withstands_within host
  refine .before (.of_preserves fun S => (hquiet S).deadlineAfter _) ?_
    one_le_kstar
  intro deadline
  refine .loop (fun _ => lawful_isConnected.after fun connected => ?_) ()
  refine .of_preserves fun S => .ite (fun _ => .pure _) fun _ => ?_
  refine ((hquiet S).expired _).bind fun late =>
    .ite (fun _ => .pure _) fun _ => ?_
  exact ((hquiet S).timeLeft _).bind fun _ =>
    ((hquiet S).delay _).bind fun _ => .pure _

theorem lawful_awaitEnabled : Lawful host.awaitEnabled pollPort∗ := by
  have hquiet := withstands_within host
  refine .before (.of_preserves fun S => (hquiet S).deadlineAfter _) ?_
    one_le_kstar
  intro deadline
  have hrest : ∀ port : HostPort, Lawful (do
      if HostPort.enabled.get port then
        return .inr (some (.ofCode (HostPort.speed.get port).toNat))
      if ← host.core.expired deadline then
        return .inr none
      host.core.delay host.settings.portPollInterval
      return .inl () : Run Register σ (Unit ⊕ Option Speed)) 1 := by
    refine fun port => .of_preserves fun S =>
      .ite (fun _ => .pure _) fun _ => ?_
    refine ((hquiet S).expired _).bind fun late =>
      .ite (fun _ => .pure _) fun _ => ?_
    exact ((hquiet S).delay _).bind fun _ => .pure _
  refine .loop (fun _ => lawful_loadPort (M := fun v =>
    if v.getLsbD 3 = true then rewrite .acknowledgeEnabled else 1)
    (fun v => ?_) fun v => ?_) ()
  · have hchanged : HostPort.enableChanged.get (⟨v⟩ : HostPort) =
        v.getLsbD 3 := BitField.get_flag _ _
    rw [hchanged]
    by_cases hv : v.getLsbD 3 = true
    · rw [if_pos hv, if_pos hv]
      refine (lawful_acknowledgePort fun v => ?_).after fun _ => hrest _
      exact acknowledge_writes rfl (by decide) v
    · rw [if_neg hv, if_neg hv]
      exact hrest _
  · intro t ht
    obtain ⟨_, rfl, u, hu, rfl⟩ := Language.mem_mul.1 ht
    by_cases hv : v.getLsbD 3 = true
    · rw [if_pos hv] at hu
      exact .inr (Language.append_mem_mul ⟨v, hv, rfl⟩ hu)
    · rw [if_neg hv] at hu
      obtain rfl : u = [] := hu
      exact .inl ⟨v, by simpa using hv, rfl⟩

/-! ## Operations on the device -/

namespace HostM

/-- Whatever becomes of the operation, its accesses to the port belong to
`L`. -/
def Lawful (p : HostM σ α) (L : Language PortAccess) : Prop :=
  ∀ s, UsbHost.Lawful (p.run.run s) L

namespace Lawful

variable {p : HostM σ α} {f : α → HostM σ β} {L M : Language PortAccess}

theorem mono (h : Lawful p L) (hLM : L ≤ M) : Lawful p M :=
  fun s => (h s).mono hLM

theorem of_preserves (h : ∀ S, HostM.Preserves (Within S) p) : Lawful p 1 :=
  fun s => .of_preserves fun S => h S s

/-- One operation after another; the second one may make no access, since the
first may fail. -/
theorem bind (hp : Lawful p L) (hf : ∀ a, Lawful (f a) M) (hM : 1 ≤ M) :
    Lawful (p >>= f) (L * M) := by
  intro s
  rw [HostM.run_bind]
  refine (hp s).bind (fun r => ?_) hM
  cases r.1 with
  | ok a => exact hf a r.2
  | error e => exact UsbHost.Lawful.mono (.pure _) hM

/-- What follows has nothing to do with the port. -/
theorem after (hp : Lawful p L) (hf : ∀ a, Lawful (f a) 1) :
    Lawful (p >>= f) L := by
  have h := hp.bind hf le_rfl
  rwa [mul_one] at h

/-- A program that knows nothing of the device, and what follows. -/
theorem lift {p : Run Register σ α} (hp : UsbHost.Lawful p L)
    (hf : ∀ a, Lawful (f a) M) (hM : 1 ≤ M) :
    Lawful (liftM p >>= f) (L * M) := by
  intro s
  rw [HostM.run_lift_bind]
  exact hp.bind (fun a => hf a s) hM

/-- A pause, and what follows. -/
theorem delay {f : Unit → HostM σ α} (d : Duration) (hf : Lawful (f ()) M)
    (hM : 1 ≤ M) : Lawful (liftM (host.core.delay d) >>= f) M := by
  have hdelay : UsbHost.Lawful (host.core.delay d) 1 := lawful_delay d
  have h := lift hdelay (fun _ => hf) hM
  rwa [one_mul] at h

end Lawful

end HostM

theorem lawful_resetBus : HostM.Lawful host.resetBus busReset := by
  have hbegin : Lawful (host.core.updatePort { reset := some true })
      (rewrite .beginReset) :=
    lawful_updatePort fun v => change_writes _ rfl rfl (by decide) v
  have hend : Lawful (host.core.updatePort { reset := some false })
      (rewrite .endReset) :=
    lawful_updatePort fun v => change_writes _ rfl rfl (by decide) v
  have hall : Lawful (host.core.acknowledgePort FlagSet.all)
      (rewrite .acknowledge) :=
    lawful_acknowledgePort fun v => acknowledge_writes rfl (by decide) v
  intro s
  unfold Host.resetBus
  rw [HostM.run_lift_bind]
  refine lawful_isConnected_bind (M := fun connected =>
    if connected then rewrite .acknowledge *
      (1 + rewrite .beginReset * (1 + rewrite .endReset * pollPort∗))
    else 1) (fun connected => ?_) fun connected => ?_
  · cases connected with
    | false => exact .pure _
    | true =>
      -- The reset proper may be cut short in any of its pauses.
      rw [if_pos rfl]
      refine HostM.Lawful.lift hall (fun _ => .delay _ ?_ le_self_add)
        le_self_add s
      refine .mono
        (.lift hbegin (fun _ => .delay _ ?_ le_self_add) le_self_add)
        le_add_self
      refine .mono
        (.lift hend (fun _ => .delay _ ?_ one_le_kstar) one_le_kstar)
        le_add_self
      intro s
      rw [HostM.run_lift_bind]
      refine lawful_awaitEnabled.after fun speed => ?_
      cases speed with
      | none => exact .pure _
      | some speed => exact .pure _
  · cases connected with
    | false =>
      rw [if_neg Bool.false_ne_true, mul_one]
      exact le_self_add
    | true =>
      rw [if_pos rfl, ← mul_assoc]
      exact le_add_self

theorem lawful_enumerate : HostM.Lawful host.enumerate (1 + busReset) := by
  intro s S w hw
  have hquiet := withstands_within host
  have hbegun : ∀ w : World Register σ, Within S w →
      Within (S * (1 + busReset)) w :=
    fun w hw => hw.mono (le_mul_of_one_le_right' le_self_add)
  have hreset : ∀ w : World Register σ, Within (S * busReset) w →
      Within (S * (1 + busReset)) w :=
    fun w hw => hw.mono (mul_le_mul_right le_add_self S)
  have hbefore := ((hquiet S).conducts hbegun).toBears
  have hafter := ((hquiet (S * busReset)).conducts hreset).toBears
  refine hbefore.always_enumerate hafter hbegun hreset (fun s w hw => ?_) s hw
  exact (lawful_resetBus s S w hw).weaken hreset

theorem lawful_init {power : PowerSwitch σ}
    (hpower : ∀ S, Preserves (Within S) power) :
    HostM.Lawful (host.init power) (1 + rewrite .power) := by
  intro s S w hw
  have hquiet := withstands_within host S
  have hnone : ∀ w : World Register σ, Within S w →
      Within (S * (1 + rewrite .power)) w :=
    fun w hw => hw.mono (le_mul_of_one_le_right' le_self_add)
  have hport : Lawful (do
      host.core.updatePort { power := some true }
      host.core.delay host.settings.portPowerSettle) (rewrite .power) := by
    refine Lawful.after (lawful_updatePort fun v => ?_) fun _ => lawful_delay _
    exact change_writes _ rfl rfl (by decide) v
  exact (hquiet.conducts hnone).always_init (hpower S) hnone
    (fun w hw => hport.mono le_add_self S w hw) s hw

theorem lawful_start {power : PowerSwitch σ} (timeout : Duration)
    (hpower : ∀ S, Preserves (Within S) power) :
    HostM.Lawful (host.start power timeout)
      ((1 + rewrite .power) * (look fun _ => True)∗ * (1 + busReset) *
        (1 + busReset)) := by
  have hone : 1 ≤ 1 + busReset := le_self_add
  have hidle : HostM.Lawful (tryCatch host.setIdle fun _ => pure ()) 1 :=
    .of_preserves fun S => .tryCatch (withstands_within host S).setIdle
      fun _ => .pure _
  rw [mul_assoc, mul_assoc]
  refine .bind (lawful_init hpower) (fun _ => ?_)
    (one_le_mul one_le_kstar (one_le_mul hone hone))
  refine .lift (lawful_awaitDevice timeout) (fun found => ?_)
    (one_le_mul hone hone)
  cases found with
  | false => exact .mono (fun _ => .pure _) (one_le_mul hone hone)
  | true =>
    refine .bind (.mono lawful_resetBus le_add_self) (fun _ => ?_) hone
    exact .after lawful_enumerate fun _ => hidle

/-! ## Any run of the driver -/

/-- What an operation does to the port. -/
theorem lawful_perform {operation : Operation σ}
    (hp : ∀ S, operation.PowerPreserves (Within S)) (driver : Driver) :
    Lawful (operation.perform host driver) operation.portLaw := by
  have hquiet := withstands_within host
  have hdevice : ∀ {p : HostM σ Unit} {L : Language PortAccess},
      HostM.Lawful p L → Lawful (Operation.onDevice driver p) L :=
    fun hp => (hp driver.state).after fun _ => .pure _
  cases operation with
  | isConnected => exact lawful_isConnected.after fun _ => .pure _
  | awaitDevice timeout =>
    exact (lawful_awaitDevice timeout).after fun _ => .pure _
  | init power => exact hdevice (lawful_init hp)
  | resetBus => exact hdevice lawful_resetBus
  | enumerate => exact hdevice lawful_enumerate
  | start power timeout => exact hdevice (lawful_start timeout hp)
  | setIdle => exact hdevice (.of_preserves fun S => (hquiet S).setIdle)
  | setInterface interface setting =>
    exact hdevice (.of_preserves fun S => (hquiet S).setInterface _ _)
  | version =>
    exact .of_preserves fun S =>
      ((hquiet S).load _ (by trivial)).bind fun _ => .pure _
  | control setup buffer =>
    exact .of_preserves fun S =>
      ((hquiet S).control _ _ _).bind fun _ => .pure _
  | transfer x buffer length =>
    exact .of_preserves fun S =>
      ((hquiet S).transfer _ _ _ _).bind fun _ => .pure _
  | readReport report =>
    exact .of_preserves fun S =>
      ((hquiet S).readReport _ _).bind fun _ => .pure _
  | poll =>
    exact .of_preserves fun S => ((hquiet S).poll _ _).bind fun _ => .pure _

/-- Operations make their accesses to the port one after another; a run that
stops has begun some of them. -/
theorem lawful_performAll {operations : List (Operation σ)}
    (hp : ∀ operation ∈ operations, ∀ S,
      operation.PowerPreserves (Within S))
    (driver : Driver) {S : Language PortAccess} {w : World Register σ}
    (hw : Within S w) :
    (driver.performAll host operations).Always w
      (fun _ => Within (S * (operations.map Operation.portLaw).prod))
      fun w' => ∃ n,
        Within (S * ((operations.take n).map Operation.portLaw).prod) w' := by
  induction operations generalizing driver S w with
  | nil =>
    refine .pure ?_
    rw [List.map_nil, List.prod_nil, mul_one]
    exact hw
  | cons operation rest ih =>
    have hfirst : (operation.perform host driver).Always w _ _ :=
      lawful_perform (hp operation List.mem_cons_self) driver S w hw
    refine (hfirst.weaken ?_).bind fun r w' hw' => ?_
    · intro w' hw'
      refine ⟨1, ?_⟩
      simpa using hw'
    · have hrest := ih (fun o ho => hp o (List.mem_cons_of_mem _ ho)) r.2 hw'
      refine (hrest.weaken ?_).bind fun _ w'' hw'' => .pure ?_
      · intro w'' ⟨n, hn⟩
        refine ⟨n + 1, ?_⟩
        simpa [mul_assoc] using hn
      · simpa [mul_assoc] using hw''

end UsbHost
