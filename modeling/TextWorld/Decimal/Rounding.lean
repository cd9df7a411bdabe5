/-! Quotients of natural numbers rounded to the nearest integer, a half to the even neighbour. -/

namespace TextWorld.Decimal

/-- The integer nearest to `num / den`; of two equally near ones the even one. -/
def roundQuotient (num den : Nat) : Nat :=
  let q := num / den
  let r := num % den
  if den < 2 * r ∨ (2 * r = den ∧ q % 2 = 1) then q + 1 else q

/-- The rounded quotient is within half a unit of the quotient. -/
theorem roundQuotient_within (num : Nat) {den : Nat} (hden : 0 < den) :
    2 * num ≤ 2 * (roundQuotient num den * den) + den ∧
      2 * (roundQuotient num den * den) ≤ 2 * num + den := by
  have hdiv := Nat.div_add_mod num den
  rw [Nat.mul_comm] at hdiv
  have hlt := Nat.mod_lt num hden
  unfold roundQuotient
  simp only
  split
  · rw [Nat.add_mul]
    omega
  · omega

/-- A quotient half way between two integers is rounded to the even one. -/
theorem roundQuotient_tie {num den : Nat} (h : 2 * (num % den) = den) :
    roundQuotient num den % 2 = 0 := by
  unfold roundQuotient
  simp only [h, Nat.lt_irrefl, true_and, false_or]
  split <;> omega

end TextWorld.Decimal
