import HostSurvey.Number.Double

/-!
# The shortest decimal of a double

A double is written with the fewest decimal digits that read back as the same double. On the grid
of decimals with `1, 2, …, 17` digits the two neighbours of the exact value are tried, the nearer
one first and the even one first when both are equally near; the first one that reads back is
taken. Should no grid have one, the exact decimal value of the double is written, so what is
written always reads back.
-/

namespace HostSurvey.Number

/-- The decimal number `digits * 10^exponent`. -/
structure Decimal where
  digits : Nat
  exponent : Int
deriving DecidableEq

/-- The double nearest to a decimal has the given pattern. -/
def Decimal.readsBack (pattern : Nat) (d : Decimal) : Bool :=
  (Double.ofDecimal? false d.digits d.exponent).map Double.pattern == some pattern

/-- The power of ten of the first digit of a positive magnitude. -/
def leadingPlace (pattern : Nat) : Int :=
  (Nat.toDigits 10 (units pattern * Nat.pow 10 400 / unitsPerOne)).length - 401

/-- The two neighbours of a magnitude among the multiples of a power of ten, the preferred one
first. -/
def neighbours (pattern : Nat) (exponent : Int) : List Decimal :=
  let num := units pattern * Nat.pow 10 (-exponent).toNat
  let den := unitsPerOne * Nat.pow 10 exponent.toNat
  let low := num / den
  let twice := 2 * (num % den)
  if twice < den ∨ (twice = den ∧ low % 2 = 0) then [⟨low, exponent⟩, ⟨low + 1, exponent⟩]
  else [⟨low + 1, exponent⟩, ⟨low, exponent⟩]

def exactDecimal (pattern : Nat) : Decimal := ⟨units pattern * Nat.pow 5 1074, -1074⟩

/-- A decimal of the same value whose last digit is not zero. -/
def stripZeros (digits : Nat) (exponent : Int) : Decimal :=
  if h : digits ≠ 0 ∧ digits % 10 = 0 then stripZeros (digits / 10) (exponent + 1)
  else ⟨digits, exponent⟩
termination_by digits
decreasing_by omega

def shortestDecimal (pattern : Nat) : Decimal :=
  let place := leadingPlace pattern
  let found := (List.range 17).findSome? fun (more : Nat) =>
    (neighbours pattern (place - more)).find? (Decimal.readsBack pattern)
  let decimal := found.getD (exactDecimal pattern)
  stripZeros decimal.digits decimal.exponent

end HostSurvey.Number
