import HostSurvey.Number.Double

/-!
# Values and their total order

The value of a double is a whole number of units with a sign. In the total order doubles are ordered
by their values, and of the two zeros the negative one comes first; `rank` gives every double its
place in this order.
-/

namespace HostSurvey.Number

/-! ## Units -/

@[simp] theorem units_zero : units 0 = 0 := by decide

theorem units_lt_units_iff {a b : Nat} : units a < units b ↔ a < b := by
  apply Iff.intro
  · intro h
    rcases Nat.lt_trichotomy a b with hab | hab | hba
    · exact hab
    · rw [hab] at h
      omega
    · have hunits := units_lt_units hba
      omega
  · exact units_lt_units

theorem units_eq_zero_iff {a : Nat} : units a = 0 ↔ a = 0 := by
  have hpos := units_lt_units_iff (a := 0) (b := a)
  rw [units_zero] at hpos
  omega

namespace Double

/-- The value of a double in units of `2^-1074`. -/
def signedUnits (x : Double) : Int :=
  if x.negative then -(units x.pattern : Int) else units x.pattern

/-- The strict total order of doubles. -/
def TotalLT (x y : Double) : Prop :=
  x.signedUnits < y.signedUnits ∨
    x.signedUnits = y.signedUnits ∧ x.negative = true ∧ y.negative = false

theorem isPositive_iff {x : Double} : x.isPositive = true ↔ 0 < x.signedUnits := by
  have hzero := units_eq_zero_iff (a := x.pattern)
  cases hsign : x.negative with
  | true =>
    simp only [isPositive, signedUnits, hsign, if_true, Bool.not_true, Bool.false_and,
      Bool.false_eq_true, false_iff]
    omega
  | false =>
    simp only [isPositive, signedUnits, hsign, Bool.not_false, Bool.true_and, bne_iff_ne,
      Bool.false_eq_true, if_false, ne_eq]
    omega

theorem rank_lt_rank_iff {x y : Double} : x.rank < y.rank ↔ x.TotalLT y := by
  have hlt := units_lt_units_iff (a := x.pattern) (b := y.pattern)
  have hgt := units_lt_units_iff (a := y.pattern) (b := x.pattern)
  unfold TotalLT rank signedUnits
  cases hx : x.negative with
  | true =>
    cases hy : y.negative with
    | true =>
      simp only [if_true, Bool.true_eq_false, and_false, or_false]
      omega
    | false =>
      simp only [if_true, Bool.false_eq_true, if_false, and_self, and_true]
      omega
  | false =>
    cases hy : y.negative with
    | true =>
      simp only [Bool.false_eq_true, if_false, if_true, false_and, and_false, or_false]
      omega
    | false =>
      simp only [Bool.false_eq_true, if_false, false_and, and_false, or_false]
      omega

end Double

end HostSurvey.Number
