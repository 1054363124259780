import HostSurvey.Number.Double

/-!
# Reading a double from decimal text

A decimal is an optional sign, digits with at most one point among or beside them and at least one
digit in all, and an optional exponent. It stands for the nearest finite double; a text of another
shape, or one whose magnitude is beyond the finite doubles, stands for none.
-/

namespace HostSurvey.Number

def natOfDigits (cs : List Char) : Nat := cs.foldl (fun n c => n * 10 + (c.toNat - '0'.toNat)) 0

/-- Whether a text starts with a minus sign, and what follows its sign. -/
def splitSign : List Char → Bool × List Char
  | '-' :: cs => (true, cs)
  | '+' :: cs => (false, cs)
  | cs => (false, cs)

/-- The exponent at the end of a decimal, which is zero when nothing is left. -/
def readExponent? : List Char → Option Int
  | [] => some 0
  | c :: cs =>
    let (negative, digits) := splitSign cs
    if (c = 'e' ∨ c = 'E') ∧ digits ≠ [] ∧ digits.all Char.isDigit then
      some (if negative then -(natOfDigits digits : Int) else natOfDigits digits)
    else none

/-- The digits after the point, if there is a point, and what follows them. -/
def splitFraction : List Char → List Char × List Char
  | '.' :: cs => (cs.takeWhile Char.isDigit, cs.dropWhile Char.isDigit)
  | cs => ([], cs)

/-- The finite double that a decimal stands for. -/
def Double.ofText? (cs : List Char) : Option Double :=
  let (negative, body) := splitSign cs
  let whole := body.takeWhile Char.isDigit
  let (fraction, tail) := splitFraction (body.dropWhile Char.isDigit)
  if whole = [] ∧ fraction = [] then none
  else (readExponent? tail).bind fun exponent =>
    Double.ofDecimal? negative (natOfDigits (whole ++ fraction)) (exponent - fraction.length)

end HostSurvey.Number
