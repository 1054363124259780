import HostSurvey.Number.Rounding

/-!
# Finite doubles

A finite IEEE 754 binary64 number is a sign and a pattern: the exponent and fraction bits, read as
one number below `2047 * 2^52`. The magnitudes that patterns stand for are whole multiples of
`2^-1074`, and `units` gives that multiple; it grows with the pattern. Rounding an exact magnitude
to the nearest double is `nearestPattern`, and arithmetic that rounds goes through the core type
`Float`.
-/

namespace HostSurvey.Number

/-- The number of patterns with the same exponent, which is `2^52`. -/
def fractionCount : Nat := 0x10000000000000

/-- The number of patterns of finite magnitudes. -/
def patternLimit : Nat := 2047 * fractionCount

/-- The number of units in one. -/
def unitsPerOne : Nat := Nat.pow 2 1074

/-- A finite double: its sign and the pattern of its magnitude. -/
structure Double where
  negative : Bool
  pattern : Nat
  finite : pattern < patternLimit
deriving DecidableEq

/-- The magnitude of a pattern in units of `2^-1074`. -/
def units (pattern : Nat) : Nat :=
  let exponent := pattern / fractionCount
  let fraction := pattern % fractionCount
  if exponent = 0 then fraction else (fractionCount + fraction) * Nat.pow 2 (exponent - 1)

/-- The pattern of the magnitude nearest to a quotient of units, a half going to the even one. -/
def nearestPattern (num den : Nat) : Nat :=
  let shift := (num / den).log2 - 52
  shift * fractionCount + roundEven num (den * Nat.pow 2 shift)

namespace Double

/-- The double with a sign and a pattern, unless the pattern is beyond the finite ones. -/
def ofPattern? (negative : Bool) (pattern : Nat) : Option Double :=
  if h : pattern < patternLimit then some ⟨negative, pattern, h⟩ else none

def zero : Double := ⟨false, 0, by decide⟩

def hundred : Double := ⟨false, 0x4059000000000000, by decide⟩

def greatest : Double := ⟨false, patternLimit - 1, by decide⟩

instance : Inhabited Double := ⟨zero⟩

def isPositive (x : Double) : Bool := !x.negative && x.pattern != 0

/-- The place of a double in the IEEE total order, in which `-0.0` comes before `0.0`. -/
def rank (x : Double) : Int := if x.negative then -(x.pattern : Int) - 1 else x.pattern

/-- The double nearest to `digits * 10^exponent`, unless that magnitude is beyond the finite ones.
Exponents so far out that the rounding is clear are decided without computing the power. -/
def ofDecimal? (negative : Bool) (digits : Nat) (exponent : Int) : Option Double :=
  if digits = 0 then ofPattern? negative 0
  else if 400 < exponent then none
  else if exponent < -(digits.log2 + 1100 : Int) then ofPattern? negative 0
  else if 0 ≤ exponent then
    ofPattern? negative (nearestPattern (digits * Nat.pow 10 exponent.toNat * unitsPerOne) 1)
  else
    ofPattern? negative (nearestPattern (digits * unitsPerOne) (Nat.pow 10 (-exponent).toNat))

/-- The double nearest to a quotient of whole numbers; quotients beyond the finite range stay at
the greatest double. -/
def ofRatio (num den : Nat) : Double :=
  (ofPattern? false (nearestPattern (num * unitsPerOne) den)).getD greatest

/-- The sum of the magnitudes of two doubles, rounded to nearest; a sum beyond the finite range
stays at the greatest double. -/
def addMagnitudes (x y : Double) : Double :=
  (ofPattern? false (nearestPattern (units x.pattern + units y.pattern) 1)).getD greatest

/-! ## The core type of doubles -/

/-- The weight of the sign bit, which is `2^63`. -/
def signWeight : Nat := 0x8000000000000000

def toBits (x : Double) : UInt64 := UInt64.ofNat (x.pattern + if x.negative then signWeight else 0)

def toFloat (x : Double) : Float := Float.ofBits x.toBits

def ofFloat? (x : Float) : Option Double :=
  let bits := x.toBits.toNat
  ofPattern? (signWeight ≤ bits) (bits % signWeight)

/-- A value of the core type forced into the range from zero to one hundred. -/
def clampPercentage (x : Float) : Double :=
  if x < 0 then zero else if 100 < x then hundred else (ofFloat? x).getD zero

/-! ## Facts -/

theorem ofPattern?_eq_some_iff {negative : Bool} {pattern : Nat} {x : Double} :
    ofPattern? negative pattern = some x ↔ x.negative = negative ∧ x.pattern = pattern := by
  unfold ofPattern?
  apply Iff.intro
  · intro h
    split at h
    · simp only [Option.some.injEq] at h
      subst h
      exact ⟨rfl, rfl⟩
    · simp at h
  · intro h
    rcases h with ⟨rfl, rfl⟩
    rw [dif_pos x.finite]

theorem rank_injective {x y : Double} (h : x.rank = y.rank) : x = y := by
  rcases x with ⟨xs, xp, hx⟩
  rcases y with ⟨ys, yp, hy⟩
  cases xs <;> cases ys <;> simp_all [rank] <;> omega

end Double

/-! ## Units -/

theorem units_lt_units_succ (b : Nat) : units b < units (b + 1) := by
  have hb := Nat.div_add_mod b fractionCount
  have hlt := Nat.mod_lt b (show 0 < fractionCount by decide)
  unfold fractionCount at hb hlt
  by_cases hcarry : b % fractionCount = fractionCount - 1
  · have hq : (b + 1) / fractionCount = b / fractionCount + 1 := by
      unfold fractionCount at hcarry ⊢; omega
    have hr : (b + 1) % fractionCount = 0 := by unfold fractionCount at hcarry ⊢; omega
    simp only [units, hq, hr, hcarry]
    by_cases h0 : b / fractionCount = 0
    · rw [h0, if_pos rfl, if_neg (by decide)]
      decide
    · rcases Nat.exists_eq_succ_of_ne_zero h0 with ⟨e, he⟩
      have hp : 0 < Nat.pow 2 e := Nat.two_pow_pos e
      have hs : Nat.pow 2 (e + 1) = Nat.pow 2 e * 2 := rfl
      simp only [he, Nat.succ_eq_add_one, Nat.add_one_ne_zero, if_false, Nat.add_sub_cancel,
        Nat.add_zero, hs]
      generalize Nat.pow 2 e = p at hp ⊢
      unfold fractionCount
      omega
  · have hq : (b + 1) / fractionCount = b / fractionCount := by
      unfold fractionCount at hcarry ⊢; omega
    have hr : (b + 1) % fractionCount = b % fractionCount + 1 := by
      unfold fractionCount at hcarry ⊢; omega
    simp only [units, hq, hr]
    split
    · omega
    · exact Nat.mul_lt_mul_of_pos_right (by omega) (Nat.two_pow_pos _)

theorem units_lt_units {a b : Nat} (h : a < b) : units a < units b := by
  induction b with
  | zero => omega
  | succ b ih =>
    by_cases he : a = b
    · subst he; exact units_lt_units_succ a
    · exact Nat.lt_trans (ih (by omega)) (units_lt_units_succ b)

end HostSurvey.Number
