/-!
# Rounding quotients

A quotient of natural numbers rounded to a whole number, with ties going to the
even neighbour or upward.
-/

namespace TeamDigest.Number

/-- The whole number nearest to `num / den`; a tie goes to the even one. -/
def roundEven (num den : Nat) : Nat :=
  let q := num / den
  let twice := 2 * (num % den)
  if twice < den then q
  else if den < twice then q + 1
  else if q % 2 = 0 then q else q + 1

/-- The whole number nearest to `num / den`; a tie goes up. -/
def roundUp (num den : Nat) : Nat :=
  (2 * num + den) / (2 * den)

/-- The rounded quotient is at most half a unit away. -/
theorem roundEven_near (num den : Nat) (h : 0 < den) :
    2 * num ≤ 2 * (roundEven num den * den) + den ∧
      2 * (roundEven num den * den) ≤ 2 * num + den := by
  have hdiv := Nat.div_add_mod num den
  have hmod := Nat.mod_lt num h
  have hcomm : den * (num / den) = num / den * den := Nat.mul_comm _ _
  simp only [roundEven]
  split
  · omega
  · split
    · rw [Nat.add_mul, Nat.one_mul]; omega
    · split
      · omega
      · rw [Nat.add_mul, Nat.one_mul]; omega

end TeamDigest.Number
