import TextWorld.Decimal.Binary64

/-!
Decimal texts of doubles: the fewest digits that read back, always in positional notation, and
fixed texts with one decimal place.
-/

namespace TextWorld.Decimal

/-- The decimal `digits * 10 ^ exponent`. -/
structure Scientific where
  digits : Nat
  exponent : Int
  deriving DecidableEq, Repr

namespace Scientific

/-- The decimal as a quotient. -/
def quotient (d : Scientific) : Nat × Nat :=
  (d.digits * Nat.pow 10 d.exponent.toNat, Nat.pow 10 (-d.exponent).toNat)

/-- The decimal in positional notation. -/
def positional (d : Scientific) : String :=
  let ds := Nat.toDigits 10 d.digits
  if 0 ≤ d.exponent then String.ofList (ds ++ List.replicate d.exponent.toNat '0')
  else
    let places := (-d.exponent).toNat
    let padded := List.replicate (places + 1 - ds.length) '0' ++ ds
    let whole := padded.length - places
    String.ofList (padded.take whole ++ '.' :: padded.drop whole)

/-- The same decimal without the zero that a carry out of the last place leaves. -/
def settled (d : Scientific) : Scientific :=
  if d.digits % 10 = 0 then ⟨d.digits / 10, d.exponent + 1⟩ else d

end Scientific

/-- The numbers between `low` and `high`, two quotients over one denominator; the ends belong to
the interval if `closed`. -/
structure Interval where
  low : Nat
  high : Nat
  denominator : Nat
  closed : Bool

def Interval.holds (i : Interval) (d : Scientific) : Bool :=
  let q := d.quotient
  let x := q.1 * i.denominator
  if i.closed then i.low * q.2 ≤ x && x ≤ i.high * q.2
  else i.low * q.2 < x && x < i.high * q.2

/-- The reals that round to `m * 2 ^ e`: half way to the neighbours on both sides, and only a
quarter of the step below a power of two. -/
def roundingInterval (m : Nat) (e : Int) : Interval :=
  -- Both ends are counted in quarters of the step.
  let low := if m = Nat.pow 2 52 ∧ Binary64.leastExponent < e then 4 * m - 1 else 4 * m - 2
  let s := Binary64.scale 1 4 e
  { low := low * s.1, high := (4 * m + 2) * s.1, denominator := s.2, closed := m % 2 = 0 }

/-- The exponent `k` with `10 ^ (k - 1) ≤ num / den < 10 ^ k`, found upwards from `k`. -/
def decimalOrder (num den : Nat) : Nat → Int → Int
  | 0, k => k
  | fuel + 1, k =>
    if num * Nat.pow 10 (-k).toNat < den * Nat.pow 10 k.toNat then k
    else decimalOrder num den fuel (k + 1)

/-- The neighbour of `num / den` on the grid of multiples of `10 ^ exponent` that lies in the
interval; of two the nearer, and the upper one of two equally near ones. -/
def gridNeighbour (i : Interval) (num den : Nat) (exponent : Int) : Option Scientific :=
  let top := num * Nat.pow 10 (-exponent).toNat
  let bottom := den * Nat.pow 10 exponent.toNat
  let below : Scientific := ⟨top / bottom, exponent⟩
  let above : Scientific := ⟨top / bottom + 1, exponent⟩
  match i.holds below, i.holds above with
  | true, true => some (if bottom ≤ 2 * (top % bottom) then above else below)
  | true, false => some below
  | false, true => some above
  | false, false => none

/-- The first hit on the grids with `digits`, `digits + 1`, … significant digits. -/
def shortestFrom (i : Interval) (num den : Nat) (order : Int) : Nat → Nat → Scientific
  | 0, _ => ⟨num / den, 0⟩
  | fuel + 1, digits =>
    match gridNeighbour i num den (order - digits) with
    | some d => d
    | none => shortestFrom i num den order fuel (digits + 1)

/-- The decimal with the fewest digits among those that round to `m * 2 ^ e`, and the nearest to
it of these; seventeen digits always suffice. -/
def shortest (m : Nat) (e : Int) : Scientific :=
  let s := Binary64.scale m 1 e
  -- Every finite double lies between `10 ^ (-330)` and `10 ^ 309`.
  let order := decimalOrder s.1 s.2 700 (-330)
  (shortestFrom (roundingInterval m e) s.1 s.2 order 17 1).settled

/-- The decimal text of a double. -/
def Binary64.text : Binary64 → String
  | .nan => "NaN"
  | .infinite negative => if negative then "-inf" else "inf"
  | .finite negative m e =>
    let body := if m = 0 then "0" else (shortest m e).positional
    if negative then "-" ++ body else body

/-- The text with one decimal place of a number that is not negative; a half goes to the even
digit. -/
def Binary64.oneDecimal : Binary64 → String
  | .finite _ m e =>
    let s := Binary64.scale m 1 e
    Scientific.positional ⟨roundQuotient (10 * s.1) s.2, -1⟩
  | x => x.text

example : (Binary64.ofQuotient false 1 10).text = "0.1" := by decide +kernel
example : (Binary64.ofQuotient true 5 2).text = "-2.5" := by decide +kernel
example : (Binary64.ofQuotient false 1 (10 ^ 7)).text = "0.0000001" := by decide +kernel
example : (Binary64.ofNat (10 ^ 16)).text = "10000000000000000" := by decide +kernel
example : (Binary64.ofQuotient false 1 4).oneDecimal = "0.2" := by decide +kernel
example : (Binary64.ofQuotient false 1 20).oneDecimal = "0.1" := by decide +kernel
example : (Binary64.ofQuotient false 3 20).oneDecimal = "0.1" := by decide +kernel

end TextWorld.Decimal
