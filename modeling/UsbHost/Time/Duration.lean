/-!
# Durations

A duration is a number of nanoseconds, up to 2^64 seconds less one nanosecond.
The same type serves for the readings of a monotone clock.

## Main results

* `add?_eq_some_iff` — a sum is refused exactly where it is out of range.
* `nanos_addCapped`, `nanos_sub` — the saturating operations in
  terms of nanoseconds.
* `add?_eq_carried`, `le_iff_seconds` — sums and comparisons in terms of whole
  seconds of 64 bits and the nanoseconds behind them.
-/

namespace UsbHost

/-- A span of time, or a point in time counted from a clock's own start. -/
structure Duration where
  nanos : Nat
  /-- The seconds fit into 64 bits. -/
  inRange : nanos < 18446744073709551616 * 1000000000
deriving DecidableEq

namespace Duration

@[ext] theorem ext {a b : Duration} (h : a.nanos = b.nanos) : a = b := by
  cases a; cases b; cases h; rfl

/-- The longest duration. -/
def longest : Duration := ⟨18446744073709551616 * 1000000000 - 1, by decide⟩

instance : LE Duration := ⟨fun a b => a.nanos ≤ b.nanos⟩
instance : LT Duration := ⟨fun a b => a.nanos < b.nanos⟩

instance (a b : Duration) : Decidable (a ≤ b) :=
  inferInstanceAs (Decidable (a.nanos ≤ b.nanos))

instance (a b : Duration) : Decidable (a < b) :=
  inferInstanceAs (Decidable (a.nanos < b.nanos))

instance : Min Duration := ⟨fun a b => if a ≤ b then a else b⟩

theorem le_def {a b : Duration} : a ≤ b ↔ a.nanos ≤ b.nanos := Iff.rfl

theorem lt_def {a b : Duration} : a < b ↔ a.nanos < b.nanos := Iff.rfl

theorem nanos_min (a b : Duration) : (min a b).nanos = min a.nanos b.nanos := by
  show (if a ≤ b then a else b).nanos = _
  by_cases h : a ≤ b
  · rw [if_pos h, Nat.min_eq_left h]
  · rw [if_neg h, Nat.min_eq_right (Nat.le_of_not_le h)]

theorem le_longest (a : Duration) : a ≤ longest := by
  have := a.inRange
  simp only [le_def, longest]
  omega

/-! ## Construction -/

/-- `n` nanoseconds, or the longest duration if that is less. -/
def ofNanos (n : Nat) : Duration :=
  ⟨min n (18446744073709551616 * 1000000000 - 1), by omega⟩

/-- `n` microseconds. -/
def ofMicros (n : Nat) : Duration := ofNanos (n * 1000)

/-- `n` milliseconds. -/
def ofMillis (n : Nat) : Duration := ofNanos (n * 1000000)

/-- No time at all. -/
def zero : Duration := ofNanos 0

instance : Inhabited Duration := ⟨zero⟩

theorem nanos_ofNanos {n : Nat} (h : n < 18446744073709551616 * 1000000000) :
    (ofNanos n).nanos = n := by
  simp only [ofNanos]
  omega

/-! ## Arithmetic -/

/-- The sum, unless it is out of range. -/
def add? (a b : Duration) : Option Duration :=
  if h : a.nanos + b.nanos < 18446744073709551616 * 1000000000 then some ⟨_, h⟩
  else none

/-- The sum, or the longest duration if that is less. -/
def addCapped (a b : Duration) : Duration := ofNanos (a.nanos + b.nanos)

/-- The difference, or zero if `b` is the longer one. -/
def sub (a b : Duration) : Duration := ofNanos (a.nanos - b.nanos)

theorem add?_eq_some_iff {a b c : Duration} :
    a.add? b = some c ↔ a.nanos + b.nanos = c.nanos := by
  unfold add?
  split
  · simp only [Option.some.injEq]
    exact ⟨fun h => h ▸ rfl, fun h => ext h⟩
  next h =>
    have := c.inRange
    simp only [reduceCtorEq, false_iff]
    omega

theorem add?_eq_none_iff {a b : Duration} :
    a.add? b = none ↔ longest.nanos < a.nanos + b.nanos := by
  simp only [add?, longest]
  split <;> simp <;> omega

theorem nanos_addCapped (a b : Duration) :
    (a.addCapped b).nanos = min (a.nanos + b.nanos) longest.nanos := rfl

theorem nanos_sub (a b : Duration) :
    (a.sub b).nanos = a.nanos - b.nanos := by
  have := a.inRange
  simp only [sub, ofNanos]
  omega

/-! ## Seconds and nanoseconds -/

/-- The whole seconds. -/
def seconds (d : Duration) : Nat := d.nanos / 1000000000

/-- The nanoseconds behind the whole seconds. -/
def subsecond (d : Duration) : Nat := d.nanos % 1000000000

/-- Seconds decide first. -/
theorem le_iff_seconds {a b : Duration} :
    a ≤ b ↔ a.seconds < b.seconds ∨
      a.seconds = b.seconds ∧ a.subsecond ≤ b.subsecond := by
  simp only [le_def, seconds, subsecond]
  omega

/-- A sum carries one second at most, and is refused just if its seconds do not
fit into 64 bits. -/
theorem add?_eq_carried (a b : Duration) :
    (a.add? b).map (fun c => (c.seconds, c.subsecond)) =
      let nanos := a.subsecond + b.subsecond
      let carry := if nanos < 1000000000 then 0 else 1
      if a.seconds + b.seconds + carry < 18446744073709551616 then
        some (a.seconds + b.seconds + carry, nanos - carry * 1000000000)
      else none := by
  have hsecond : a.seconds + b.seconds +
      (if a.subsecond + b.subsecond < 1000000000 then 0 else 1) =
        (a.nanos + b.nanos) / 1000000000 := by
    by_cases h : a.subsecond + b.subsecond < 1000000000
    all_goals
      simp only [h, if_true, if_false]
      simp only [seconds, subsecond] at *
      omega
  have hrest : a.subsecond + b.subsecond -
      (if a.subsecond + b.subsecond < 1000000000 then 0 else 1) * 1000000000 =
        (a.nanos + b.nanos) % 1000000000 := by
    by_cases h : a.subsecond + b.subsecond < 1000000000
    all_goals
      simp only [h, if_true, if_false]
      simp only [subsecond] at *
      omega
  simp only [hsecond, hrest]
  unfold add?
  split
  next hfits =>
    rw [if_pos (by omega)]
    rfl
  next hexceeds =>
    rw [if_neg (by omega)]
    rfl

/-! ## Text -/

/-- Whole seconds, a point and nine digits of nanoseconds. -/
def text (d : Duration) : String :=
  let digits := (Nat.toDigits 10 (d.nanos % 1000000000))
  toString (d.nanos / 1000000000) ++ "." ++
    String.ofList (List.replicate (9 - digits.length) '0' ++ digits)

/-- Reads `seconds.nanoseconds` with exactly nine digits after the point, or
the word `max` for the longest duration. -/
def ofText? (s : String) : Option Duration :=
  if s = "max" then some longest
  else
    match s.splitOn "." with
    | [seconds, rest] => do
        guard (rest.length = 9)
        let n := (← seconds.toNat?) * 1000000000 + (← rest.toNat?)
        if h : n < 18446744073709551616 * 1000000000 then some ⟨n, h⟩ else none
    | _ => none

end Duration

end UsbHost
