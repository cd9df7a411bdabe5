import TextWorld.Decimal.Binary64

/-!
Reading doubles from decimal texts. A number is a sign, digits with at most one point, at least
one digit among them, and an exponent; `inf`, `infinity` and `nan` are read in any letter case.
-/

namespace TextWorld.Decimal

def digitValue (c : Char) : Nat := c.toNat - '0'.toNat

/-- The number written by decimal digits. -/
def digitsValue (ds : List Char) : Nat :=
  ds.foldl (fun n c => 10 * n + digitValue c) 0

/-- The unsigned decimal integers; a leading plus sign is allowed. -/
def natural? (cs : List Char) : Option Nat :=
  let ds := match cs with
    | '+' :: rest => rest
    | _ => cs
  if ds ≠ [] ∧ ds.all Char.isDigit then some (digitsValue ds) else none

theorem natural?_of_digits {ds : List Char} (hne : ds ≠ []) (hdigit : ∀ c ∈ ds, c.isDigit = true) :
    natural? ds = some (digitsValue ds) := by
  cases ds with
  | nil => exact absurd rfl hne
  | cons c cs =>
    have hplus : c ≠ '+' := by
      rintro rfl
      exact absurd (hdigit '+' List.mem_cons_self) (by decide)
    have hall : (c :: cs).all Char.isDigit = true := List.all_eq_true.2 hdigit
    simp [natural?, hplus, hall]

theorem digitsValue_toDigits (n : Nat) : digitsValue (Nat.toDigits 10 n) = n := by
  have hfold : digitsValue (Nat.toDigits 10 n) = Nat.ofDigitChars 10 (Nat.toDigits 10 n) 0 :=
    Nat.ofDigitChars_eq_foldl.symm
  rw [hfold, Nat.ofDigitChars_ten_toDigits]

/-- A number is read back from the digits that write it. -/
theorem natural?_toDigits (n : Nat) : natural? (Nat.toDigits 10 n) = some n := by
  have hdigit : ∀ c ∈ Nat.toDigits 10 n, c.isDigit = true :=
    fun c hc => Nat.isDigit_of_mem_toDigits (by decide) (by decide) hc
  rw [natural?_of_digits Nat.toDigits_ne_nil hdigit, digitsValue_toDigits]

/-- The integers that follow the letter of an exponent. -/
def exponent? (cs : List Char) : Option Int :=
  match cs with
  | '-' :: rest =>
    match rest with
    | '+' :: _ => none
    | _ => (natural? rest).map fun n => -(n : Int)
  | _ => (natural? cs).map Int.ofNat

/-- The double nearest to `digits * 10 ^ exponent`. Beyond the bounds the result is infinite or
zero whatever the digits, so no power of ten grows without need. -/
def ofDecimal (negative : Bool) (digits : Nat) (exponent : Int) : Binary64 :=
  let order : Int := (Nat.toDigits 10 digits).length + exponent
  if digits = 0 then .zero negative
  else if 400 < order then .infinite negative
  else if order < -400 then .zero negative
  else .ofQuotient negative (digits * Nat.pow 10 exponent.toNat) (Nat.pow 10 (-exponent).toNat)

/-- The unsigned numbers. -/
def magnitude? (negative : Bool) (cs : List Char) : Option Binary64 :=
  let whole := cs.takeWhile Char.isDigit
  let afterWhole := cs.dropWhile Char.isDigit
  let (fraction, tail) := match afterWhole with
    | '.' :: rest => (rest.takeWhile Char.isDigit, rest.dropWhile Char.isDigit)
    | _ => ([], afterWhole)
  let exponent := match tail with
    | [] => some 0
    | c :: rest => if c = 'e' ∨ c = 'E' then exponent? rest else none
  if whole = [] ∧ fraction = [] then none
  else
    exponent.map fun e =>
      ofDecimal negative (digitsValue (whole ++ fraction)) (e - fraction.length)

/-- The double a text denotes. -/
def Binary64.ofText? (text : String) : Option Binary64 :=
  let (negative, body) := match text.toList with
    | '-' :: rest => (true, rest)
    | '+' :: rest => (false, rest)
    | cs => (false, cs)
  let word := String.ofList (body.map Char.toLower)
  if word = "inf" ∨ word = "infinity" then some (.infinite negative)
  else if word = "nan" then some .nan
  else magnitude? negative body

end TextWorld.Decimal
