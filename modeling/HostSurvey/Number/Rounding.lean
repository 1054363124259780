/-!
# Rounding a quotient

The nearest whole number to an exact quotient. The two rules differ only on a half: `roundEven`
goes to the even neighbour, `roundUp` to the greater one.
-/

namespace HostSurvey.Number

/-- The whole number nearest to a quotient, a half going to the even neighbour. -/
def roundEven (num den : Nat) : Nat :=
  let whole := num / den
  let twice := 2 * (num % den)
  if twice < den then whole
  else if den < twice then whole + 1
  else if whole % 2 = 0 then whole else whole + 1

/-- The whole number nearest to a quotient, a half going to the greater neighbour. -/
def roundUp (num den : Nat) : Nat := (2 * num + den) / (2 * den)

theorem roundEven_mul (n den : Nat) (h : 0 < den) : roundEven (n * den) den = n := by
  simp [roundEven, Nat.mul_mod_left, Nat.mul_div_cancel n h, h]

end HostSurvey.Number
