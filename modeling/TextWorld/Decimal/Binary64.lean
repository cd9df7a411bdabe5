import TextWorld.Decimal.Rounding

/-!
Double-precision numbers in exact arithmetic. Every operation computes the exact rational result
and rounds it once, to the nearest number of the format.
-/

namespace TextWorld.Decimal

/-- A double: `finite s m e` is `m * 2 ^ e`, negated if `s`, with `m < 2 ^ 53`, `-1074 ≤ e ≤ 971`,
and `2 ^ 52 ≤ m` unless `e = -1074`. -/
inductive Binary64 where
  | nan
  | infinite (negative : Bool)
  | finite (negative : Bool) (mantissa : Nat) (exponent : Int)
  deriving DecidableEq, Repr

namespace Binary64

def leastExponent : Int := -1074

def greatestExponent : Int := 971

def zero (negative : Bool) : Binary64 := .finite negative 0 leastExponent

/-- `num / den` as the quotient of two natural numbers after multiplication with `2 ^ e`. -/
def scale (num den : Nat) (e : Int) : Nat × Nat :=
  (num * Nat.pow 2 e.toNat, den * Nat.pow 2 (-e).toNat)

/-- The exponent `f` with `2 ^ f ≤ num / den < 2 ^ (f + 1)`. -/
def binaryOrder (num den : Nat) : Int :=
  let l : Int := (Nat.log2 num : Int) - Nat.log2 den
  let s := scale num den (-l)
  if s.2 ≤ s.1 then l else l - 1

/-- The double nearest to `num / den`, negated if `negative`; of two equally near ones the one
with the even mantissa. -/
def ofQuotient (negative : Bool) (num den : Nat) : Binary64 :=
  if num = 0 then zero negative
  else
    let e := max (binaryOrder num den - 52) leastExponent
    let s := scale num den (-e)
    let m := roundQuotient s.1 s.2
    let r := if m = Nat.pow 2 53 then (Nat.pow 2 52, e + 1) else (m, e)
    if greatestExponent < r.2 then .infinite negative else .finite negative r.1 r.2

def ofNat (n : Nat) : Binary64 := ofQuotient false n 1

/-- The sum of two numbers that are not negative. -/
def addMagnitudes : Binary64 → Binary64 → Binary64
  | .finite _ m e, .finite _ n f =>
    let a := scale m 1 e
    let b := scale n 1 f
    ofQuotient false (a.1 * b.2 + b.1 * a.2) (a.2 * b.2)
  | .nan, _ => .nan
  | _, .nan => .nan
  | x, .finite .. => x
  | _, y => y

/-- Equality of numbers: `nan` equals nothing, and the two zeros are equal. -/
def eq : Binary64 → Binary64 → Bool
  | .nan, _ => false
  | _, .nan => false
  | .finite s m e, .finite t n f => (m == 0 && n == 0) || (s == t && m == n && e == f)
  | x, y => x == y

end Binary64

end TextWorld.Decimal
