import UsbHost.Bits.Word
import UsbHost.Time.Duration

/-!
# Programs on a register bus and a clock

A driver sees hardware only through the registers it reads and writes and the
clock it consults.  A `Machine ρ σ` gives the behaviour of both as functions on
an environment `σ` of which nothing else is known, so a statement about every
machine is a statement about every hardware.  `ρ` is the type of register
names.

A program is a `Run`: it transforms a `World`, which holds the environment and
the log of everything that happened on bus and clock.  Waits need not end, so
a program also carries its observer's patience: the number of rounds after
which a loop is given up as unfinished.  A program returns if some patience
suffices.

## Main results

* `Machine.read_run`, `Machine.write_run`, `Machine.barrier_run`,
  `Machine.now_run` — what each primitive does to the world.
* `Run.rounds_succ` — the unfolding of a loop by one round.
* `Run.slice_eq`, `Run.narrow_eq`, `Run.add_eq` — what a checked step yields
  when its check succeeds.
-/

namespace UsbHost

variable {ρ σ α β : Type}

/-! ## Worlds -/

/-- What can happen on a bus or a clock, with the value read or written. -/
inductive Event (ρ : Type) where
  | read (register : ρ) (value : Word)
  | write (register : ρ) (value : Word)
  | barrier
  | clock (reading : Duration)
  | pause (duration : Duration)
deriving DecidableEq

/-- An environment and the events so far, the latest one first. -/
structure World (ρ σ : Type) where
  env : σ
  log : List (Event ρ) := []

/-- Why a program stopped without a result. -/
inductive Halt where
  /-- A sum did not fit into its fixed width. -/
  | addOverflow
  /-- A part of a buffer was asked for that it does not have, or a number was
  too large for its field. -/
  | outOfRange
  /-- A loop went on for longer than the observer's patience. -/
  | unfinished
deriving DecidableEq

/-- The words in which a fault is reported. -/
def Halt.message : Halt → String
  | .addOverflow => "attempt to add with overflow"
  | .outOfRange => "value out of range"
  | .unfinished => "unfinished"

/-! ## Programs -/

/-- A program that uses the machine and returns an `α`.  It is given the
observer's patience and the world it starts in. -/
abbrev Run (ρ σ : Type) := ReaderT Nat (EStateM Halt (World ρ σ))

namespace Run

/-- Repeats `body` until it returns a result, for at most `n` rounds. -/
def rounds : Nat → (β → Run ρ σ (β ⊕ α)) → β → Run ρ σ α
  | 0, _, _, _, w => .error .unfinished w
  | n + 1, body, b, patience, w =>
    match body b patience w with
    | .ok (.inl b') w' => rounds n body b' patience w'
    | .ok (.inr a) w' => .ok a w'
    | .error h w' => .error h w'

/-- Repeats `body`, handing each round's `inl` to the next, until it returns
a result in `inr`. -/
def loop (body : β → Run ρ σ (β ⊕ α)) (b : β) : Run ρ σ α :=
  fun patience w => rounds patience body b patience w

theorem rounds_succ (n : Nat) (body : β → Run ρ σ (β ⊕ α)) (b : β) :
    rounds (n + 1) body b =
      body b >>= fun
        | .inl b' => rounds n body b'
        | .inr a => pure a := by
  funext patience w
  simp only [rounds, bind, ReaderT.bind, EStateM.bind]
  split <;> simp_all [pure, ReaderT.pure, EStateM.pure]

/-! ### Checked steps -/

/-- The part of a list from `start` up to, but without, `stop`. -/
def slice (xs : List α) (start stop : Nat) : Run ρ σ (List α) :=
  if start ≤ stop ∧ stop ≤ xs.length then pure ((xs.take stop).drop start)
  else throw .outOfRange

/-- A number as a pattern of `width` bits. -/
def narrow (width n : Nat) : Run ρ σ (BitVec width) :=
  if (BitVec.ofNat width n).toNat = n then pure (BitVec.ofNat width n)
  else throw .outOfRange

/-- The sum of two numbers of one width. -/
def add {width : Nat} (a b : BitVec width) : Run ρ σ (BitVec width) :=
  if (a + b).toNat = a.toNat + b.toNat then pure (a + b)
  else throw .addOverflow

theorem slice_eq {xs : List α} {start stop : Nat} (h : start ≤ stop)
    (h' : stop ≤ xs.length) :
    (slice xs start stop : Run ρ σ (List α)) =
      pure ((xs.take stop).drop start) := by
  simp [slice, h, h']

theorem narrow_eq {width n : Nat} (h : (BitVec.ofNat width n).toNat = n) :
    (narrow width n : Run ρ σ (BitVec width)) =
      pure (BitVec.ofNat width n) := by
  simp [narrow, h]

theorem add_eq {width : Nat} {a b : BitVec width}
    (h : (a + b).toNat = a.toNat + b.toNat) :
    (add a b : Run ρ σ (BitVec width)) = pure (a + b) := by
  simp [add, h]

/-! ### Returning -/

/-- Whether the program, started in `w`, ends for an observer who waits long
enough. -/
def Returns (p : Run ρ σ α) (w : World ρ σ) : Prop :=
  ∃ patience a w', p patience w = .ok a w'

end Run

/-! ## Machines -/

/-- Register accesses as functions on an environment. -/
structure Bus (ρ σ : Type) where
  read : ρ → σ → Word × σ
  write : ρ → Word → σ → σ
  /-- Orders the accesses before it ahead of those after it. -/
  barrier : σ → σ := id

/-- A source of time. -/
structure Clock (σ : Type) where
  /-- Takes a reading. -/
  now : σ → Duration × σ
  /-- Lets a span pass at once, without readings.  A clock that cannot do this
  is waited for by taking readings. -/
  skip : Option (Duration → σ → σ) := none

/-- A bus and a clock over one environment. -/
structure Machine (ρ σ : Type) where
  bus : Bus ρ σ
  clock : Clock σ

namespace Machine

variable (m : Machine ρ σ)

/-- Reads a register. -/
def read (r : ρ) : Run ρ σ Word := fun _ w =>
  let (v, env) := m.bus.read r w.env
  .ok v ⟨env, .read r v :: w.log⟩

/-- Writes a register. -/
def write (r : ρ) (v : Word) : Run ρ σ Unit := fun _ w =>
  .ok () ⟨m.bus.write r v w.env, .write r v :: w.log⟩

/-- Keeps later accesses behind earlier ones. -/
def barrier : Run ρ σ Unit := fun _ w =>
  .ok () ⟨m.bus.barrier w.env, .barrier :: w.log⟩

/-- Takes a reading of the clock. -/
def now : Run ρ σ Duration := fun _ w =>
  let (t, env) := m.clock.now w.env
  .ok t ⟨env, .clock t :: w.log⟩

theorem read_run (r : ρ) (p : Nat) (w : World ρ σ) :
    m.read r p w = .ok (m.bus.read r w.env).1
      ⟨(m.bus.read r w.env).2, .read r (m.bus.read r w.env).1 :: w.log⟩ := rfl

theorem write_run (r : ρ) (v : Word) (p : Nat) (w : World ρ σ) :
    m.write r v p w =
      .ok () ⟨m.bus.write r v w.env, .write r v :: w.log⟩ := rfl

theorem barrier_run (p : Nat) (w : World ρ σ) :
    m.barrier p w = .ok () ⟨m.bus.barrier w.env, .barrier :: w.log⟩ := rfl

theorem now_run (p : Nat) (w : World ρ σ) :
    m.now p w = .ok (m.clock.now w.env).1
      ⟨(m.clock.now w.env).2, .clock (m.clock.now w.env).1 :: w.log⟩ := rfl

end Machine

/-! ## Machines from parts -/

/-- A bus on the first part of a pair and a clock on the second. -/
def Machine.ofParts {σ τ : Type} (bus : Bus ρ σ) (clock : Clock τ) :
    Machine ρ (σ × τ) where
  bus :=
    { read := fun r s => let (v, b) := bus.read r s.1; (v, b, s.2)
      write := fun r v s => (bus.write r v s.1, s.2)
      barrier := fun s => (bus.barrier s.1, s.2) }
  clock :=
    { now := fun s => let (t, c) := clock.now s.2; (t, s.1, c)
      skip := clock.skip.map fun f d s => (s.1, f d s.2) }

end UsbHost
