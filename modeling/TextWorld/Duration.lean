import TextWorld.Decimal.Shortest

/-! Spans of logical time, exact to the nanosecond. -/

namespace TextWorld

/-- A span of time in nanoseconds. -/
structure Duration where
  nanos : Nat
  deriving DecidableEq, Repr

namespace Duration

def nanosPerSecond : Nat := Nat.pow 10 9

/-- The longest span that a clock can show. -/
def limit : Duration := ⟨Nat.pow 2 64 * nanosPerSecond - 1⟩

def zero : Duration := ⟨0⟩

def ofSeconds (n : Nat) : Duration := ⟨n * nanosPerSecond⟩

def ofMillis (n : Nat) : Duration := ⟨n * Nat.pow 10 6⟩

def ofParts (seconds nanos : Nat) : Duration := ⟨seconds * nanosPerSecond + nanos⟩

/-- Whole seconds. -/
def seconds (d : Duration) : Nat := d.nanos / nanosPerSecond

/-- Nanoseconds beyond the whole seconds. -/
def subsecond (d : Duration) : Nat := d.nanos % nanosPerSecond

/-- Whole milliseconds. -/
def millis (d : Duration) : Nat := d.nanos / Nat.pow 10 6

/-- The sum, unless no clock can show it. -/
def add? (a b : Duration) : Option Duration :=
  if a.nanos + b.nanos ≤ limit.nanos then some ⟨a.nanos + b.nanos⟩ else none

/-- What is left of `a` after `b`, if `a` is longer. -/
def remaining? (a b : Duration) : Option Duration :=
  if b.nanos < a.nanos then some ⟨a.nanos - b.nanos⟩ else none

theorem add?_eq_some {a b c : Duration} :
    a.add? b = some c ↔ a.nanos + b.nanos ≤ limit.nanos ∧ c = ⟨a.nanos + b.nanos⟩ := by
  rw [add?]
  split
  · rename_i hle
    simp [hle, eq_comm]
  · rename_i hgt
    simp [hgt]

theorem remaining?_eq_none {a b : Duration} : a.remaining? b = none ↔ a.nanos ≤ b.nanos := by
  rw [remaining?]
  split <;> simp <;> omega

theorem remaining?_eq_some {a b left : Duration} :
    a.remaining? b = some left ↔ 0 < left.nanos ∧ b.nanos + left.nanos = a.nanos := by
  obtain ⟨left⟩ := left
  rw [remaining?]
  split <;> simp <;> omega

instance : LE Duration := ⟨fun a b => a.nanos ≤ b.nanos⟩

instance : LT Duration := ⟨fun a b => a.nanos < b.nanos⟩

instance (a b : Duration) : Decidable (a ≤ b) := inferInstanceAs (Decidable (a.nanos ≤ b.nanos))

instance (a b : Duration) : Decidable (a < b) := inferInstanceAs (Decidable (a.nanos < b.nanos))

/-- The span in seconds: whole seconds and the fraction are each rounded, and so is their sum. -/
def inSeconds (d : Duration) : Decimal.Binary64 :=
  .addMagnitudes (.ofNat d.seconds) (.ofQuotient false d.subsecond nanosPerSecond)

/-- The span in seconds with one decimal place. -/
def secondsText (d : Duration) : String := d.inSeconds.oneDecimal

/-- Why a number of seconds is no span. -/
inductive Problem where
  | negative
  | tooBig
  deriving DecidableEq, Repr

def Problem.message : Problem → String
  | .negative => "cannot convert float seconds to Duration: value is negative"
  | .tooBig => "cannot convert float seconds to Duration: value is either too big or NaN"

/-- The span nearest to a number of seconds; half a nanosecond goes to the even neighbour. -/
def ofBinary64 : Decimal.Binary64 → Except Problem Duration
  | .nan => .error .tooBig
  | .infinite negative => .error (if negative then .negative else .tooBig)
  | .finite negative m e =>
    let s := Decimal.Binary64.scale m 1 e
    let nanos := Decimal.roundQuotient (s.1 * nanosPerSecond) s.2
    if negative ∧ m ≠ 0 then .error .negative
    else if limit.nanos < nanos then .error .tooBig
    else .ok ⟨nanos⟩

end Duration

end TextWorld
