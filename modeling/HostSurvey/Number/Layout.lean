import HostSurvey.Number.Shortest

/-!
# Writing a double

Documents hold doubles with their shortest digits: in positional form, always with a fraction,
when the first digit stands between `10^-5` and `10^15`, and with an exponent otherwise. Reports
round to a fixed number of places, a half going to the even neighbour, and write every digit of
the whole part.
-/

namespace HostSurvey.Number

def digitsOf (n : Nat) : List Char := Nat.toDigits 10 n

/-- The mantissa of the exponent form: one digit, and the others after a point. -/
def mantissa : List Char → List Char
  | [] => []
  | [d] => [d]
  | d :: rest => d :: '.' :: rest

/-- A decimal as text, positional when its first digit stands between `10^-5` and `10^15`. -/
def Decimal.text (d : Decimal) : List Char :=
  let digits := digitsOf d.digits
  let place := d.exponent + digits.length - 1
  if -5 ≤ place ∧ place ≤ 15 then
    if 0 ≤ d.exponent then digits ++ List.replicate d.exponent.toNat '0' ++ ['.', '0']
    else if 0 ≤ place then
      digits.take (place.toNat + 1) ++ '.' :: digits.drop (place.toNat + 1)
    else '0' :: '.' :: List.replicate (-place - 1).toNat '0' ++ digits
  else
    mantissa digits ++ 'e' :: (if place < 0 then '-' else '+') :: digitsOf place.natAbs

def signText (negative : Bool) : List Char := if negative then ['-'] else []

def Double.text (x : Double) : List Char :=
  signText x.negative ++
    if x.pattern = 0 then ['0', '.', '0'] else (shortestDecimal x.pattern).text

/-- A double rounded to a fixed number of places, which is at least one. -/
def Double.fixedText (places : Nat) (x : Double) : List Char :=
  let scale := Nat.pow 10 places
  let scaled := roundEven (units x.pattern * scale) unitsPerOne
  let fraction := digitsOf (scaled % scale)
  signText x.negative ++ digitsOf (scaled / scale) ++
    '.' :: (List.replicate (places - fraction.length) '0' ++ fraction)

end HostSurvey.Number
