import HostSurvey.Number.Shortest
import Mathlib.Algebra.Group.Nat.Defs

/-!
# The pattern of a decimal

The double nearest to a decimal depends on the value of the decimal alone, and not on the digits and
the exponent in which it is given: what is decided without computing a power of ten is decided as if
the power were computed. Magnitudes of doubles are their own nearest doubles, and the shortest
decimal of a double has the pattern of that double.
-/

namespace HostSurvey.Number

/-! ## Rounding -/

theorem roundEven_mul_mul {k : Nat} (hk : 0 < k) (num den : Nat) :
    roundEven (k * num) (k * den) = roundEven num den := by
  unfold roundEven
  dsimp only
  rw [Nat.mul_div_mul_left _ _ hk, Nat.mul_mod_mul_left, Nat.mul_left_comm 2 k]
  simp only [Nat.mul_lt_mul_left hk]

theorem nearestPattern_mul_mul {k : Nat} (hk : 0 < k) (num den : Nat) :
    nearestPattern (k * num) (k * den) = nearestPattern num den := by
  unfold nearestPattern
  dsimp only
  rw [Nat.mul_div_mul_left _ _ hk, Nat.mul_assoc, roundEven_mul_mul hk]

theorem nearestPattern_eq_zero {num den : Nat} (h : 2 * num < den) : nearestPattern num den = 0 := by
  have hlt : num < den := by omega
  unfold nearestPattern roundEven
  simp [Nat.div_eq_of_lt hlt, Nat.mod_eq_of_lt hlt, h]

theorem div_le_roundEven (num den : Nat) : num / den ≤ roundEven num den := by
  unfold roundEven
  dsimp only
  split
  · exact Nat.le_refl _
  · split
    · exact Nat.le_succ _
    · split
      · exact Nat.le_refl _
      · exact Nat.le_succ _

-- A magnitude with more than 2098 binary digits has a greater exponent than any finite double.
theorem patternLimit_le_nearestPattern {num : Nat} (h : 2098 ≤ num.log2) :
    patternLimit ≤ nearestPattern num 1 := by
  have hne : num ≠ 0 := by
    intro hzero
    rw [hzero] at h
    exact absurd h (by decide)
  have hlimit : patternLimit = 2046 * fractionCount + fractionCount := rfl
  unfold nearestPattern
  dsimp only
  rw [Nat.div_one, Nat.one_mul, Nat.pow_eq]
  generalize hshift : num.log2 - 52 = shift
  have hquot : fractionCount ≤ num / 2 ^ shift := by
    rw [Nat.le_div_iff_mul_le (Nat.two_pow_pos shift)]
    calc fractionCount * 2 ^ shift = 2 ^ 52 * 2 ^ shift := rfl
      _ = 2 ^ num.log2 := by
        rw [← Nat.pow_add]
        congr 1
        omega
      _ ≤ num := Nat.log2_self_le hne
  have hround := div_le_roundEven num (2 ^ shift)
  have hscaled : 2046 * fractionCount ≤ shift * fractionCount :=
    Nat.mul_le_mul_right _ (by omega)
  omega

theorem log2_mul_two_pow {fraction shift : Nat} (h : fraction < fractionCount) :
    ((fractionCount + fraction) * 2 ^ shift).log2 = 52 + shift := by
  have hcount : fractionCount = 2 ^ 52 := rfl
  have hpos : 0 < 2 ^ shift := Nat.two_pow_pos shift
  have hne : (fractionCount + fraction) * 2 ^ shift ≠ 0 := Nat.mul_ne_zero (by omega) (by omega)
  apply (Nat.log2_eq_iff hne).2
  rw [Nat.pow_add, show 52 + shift + 1 = 53 + shift by omega, Nat.pow_add]
  exact ⟨Nat.mul_le_mul_right _ (by omega), Nat.mul_lt_mul_of_pos_right (by omega) hpos⟩

theorem nearestPattern_units (pattern : Nat) : nearestPattern (units pattern) 1 = pattern := by
  have hparts := Nat.div_add_mod pattern fractionCount
  have hfraction := Nat.mod_lt pattern (show 0 < fractionCount by decide)
  unfold nearestPattern units
  dsimp only
  rw [Nat.div_one, Nat.one_mul, Nat.pow_eq, Nat.pow_eq]
  by_cases h : pattern / fractionCount = 0
  · rw [if_pos h]
    rw [h, Nat.mul_zero, Nat.zero_add] at hparts
    rw [hparts] at hfraction ⊢
    have hlog : pattern.log2 - 52 = 0 := by
      rcases Nat.eq_zero_or_pos pattern with rfl | hpos
      · rfl
      · have hlt := (Nat.log2_lt (by omega)).2 (show pattern < 2 ^ 52 from hfraction)
        omega
    rw [hlog]
    simpa using roundEven_mul pattern 1 (by decide)
  · rw [if_neg h]
    generalize hexponent : pattern / fractionCount = exponent at h hparts ⊢
    generalize pattern % fractionCount = fraction at hfraction hparts ⊢
    rw [log2_mul_two_pow hfraction, Nat.add_sub_cancel_left, roundEven_mul _ _ (Nat.two_pow_pos _)]
    have hsplit : exponent = exponent - 1 + 1 := by omega
    rw [hsplit, Nat.mul_add, Nat.mul_one, Nat.mul_comm] at hparts
    omega

/-! ## Decimals -/

/-- The pattern nearest to `digits * 10^exponent`, which may be beyond the finite ones. -/
@[irreducible] def patternOf (digits : Nat) (exponent : Int) : Nat :=
  nearestPattern (digits * 10 ^ exponent.toNat * unitsPerOne) (10 ^ (-exponent).toNat)

-- The decimal of one more digit at the end, which is zero, with an exponent smaller by one.
theorem patternOf_ten_mul (digits : Nat) (exponent : Int) :
    patternOf (10 * digits) exponent = patternOf digits (exponent + 1) := by
  unfold patternOf
  by_cases h : 0 ≤ exponent
  · have hneg : (-exponent).toNat = 0 := by omega
    have hneg' : (-(exponent + 1)).toNat = 0 := by omega
    have hsucc : (exponent + 1).toNat = exponent.toNat + 1 := by omega
    rw [hneg, hneg', hsucc, Nat.pow_succ, Nat.mul_comm 10 digits, Nat.mul_assoc digits,
      Nat.mul_comm 10]
  · have hzero : exponent.toNat = 0 := by omega
    have hzero' : (exponent + 1).toNat = 0 := by omega
    have hsucc : (-exponent).toNat = (-(exponent + 1)).toNat + 1 := by omega
    rw [hzero, hzero', hsucc, Nat.pow_zero, Nat.mul_one, Nat.mul_one, Nat.mul_assoc, Nat.pow_succ,
      Nat.mul_comm _ 10, nearestPattern_mul_mul (by decide)]

theorem patternOf_mul_ten_pow (digits : Nat) (exponent : Int) (more : Nat) :
    patternOf (digits * 10 ^ more) exponent = patternOf digits (exponent + more) := by
  induction more generalizing exponent with
  | zero => simp
  | succ more ih =>
    rw [Nat.pow_succ, ← Nat.mul_assoc, Nat.mul_comm _ 10, patternOf_ten_mul, ih]
    congr 1
    omega

theorem patternOf_zero (exponent : Int) : patternOf 0 exponent = 0 := by
  unfold patternOf
  rw [Nat.zero_mul, Nat.zero_mul]
  exact nearestPattern_eq_zero (Nat.pow_pos (by decide))

theorem two_pow_mul_unitsPerOne (n : Nat) : 2 ^ n * unitsPerOne = 2 ^ (n + 1074) := by
  unfold unitsPerOne
  generalize 1074 = places
  exact (Nat.pow_add 2 n places).symm

theorem unitsPerOne_pos : 0 < unitsPerOne := by
  unfold unitsPerOne
  generalize 1074 = places
  exact Nat.two_pow_pos places

theorem patternLimit_le_patternOf {digits : Nat} {exponent : Int} (hd : digits ≠ 0)
    (h : 400 < exponent) : patternLimit ≤ patternOf digits exponent := by
  have hneg : (-exponent).toNat = 0 := by omega
  have hnum : 2 ^ (3 * exponent.toNat + 1074) ≤ digits * 10 ^ exponent.toNat * unitsPerOne := by
    calc 2 ^ (3 * exponent.toNat + 1074) = 8 ^ exponent.toNat * unitsPerOne := by
          rw [← two_pow_mul_unitsPerOne, Nat.pow_mul]
      _ ≤ 10 ^ exponent.toNat * unitsPerOne :=
          Nat.mul_le_mul_right _ (Nat.pow_le_pow_left (by decide) _)
      _ ≤ digits * (10 ^ exponent.toNat * unitsPerOne) :=
          Nat.le_mul_of_pos_left _ (Nat.pos_of_ne_zero hd)
      _ = digits * 10 ^ exponent.toNat * unitsPerOne := by rw [Nat.mul_assoc]
  have hne := Nat.ne_of_gt (Nat.lt_of_lt_of_le (Nat.two_pow_pos _) hnum)
  have hlog := (Nat.le_log2 hne).2 hnum
  unfold patternOf
  rw [hneg, Nat.pow_zero]
  exact patternLimit_le_nearestPattern (by omega)

theorem patternOf_eq_zero {digits : Nat} {exponent : Int}
    (h : exponent < -(digits.log2 + 1100 : Int)) : patternOf digits exponent = 0 := by
  have hzero : exponent.toNat = 0 := by omega
  unfold patternOf
  rw [hzero, Nat.pow_zero, Nat.mul_one]
  apply nearestPattern_eq_zero
  calc 2 * (digits * unitsPerOne) < 2 * (2 ^ (digits.log2 + 1) * unitsPerOne) :=
        Nat.mul_lt_mul_of_pos_left
          (Nat.mul_lt_mul_of_pos_right Nat.lt_log2_self unitsPerOne_pos) (by decide)
    _ = 2 ^ (digits.log2 + 1 + 1074 + 1) := by rw [two_pow_mul_unitsPerOne, ← Nat.pow_succ']
    _ ≤ 2 ^ (-exponent).toNat := Nat.pow_le_pow_right (by decide) (by omega)
    _ ≤ 10 ^ (-exponent).toNat := Nat.pow_le_pow_left (by decide) _

namespace Double

/-- Exponents that are decided without computing a power are decided as if it were computed. -/
theorem ofDecimal?_eq_ofPattern? (negative : Bool) (digits : Nat) (exponent : Int) :
    ofDecimal? negative digits exponent = ofPattern? negative (patternOf digits exponent) := by
  unfold ofDecimal?
  by_cases hd : digits = 0
  · rw [if_pos hd, hd, patternOf_zero]
  rw [if_neg hd]
  by_cases hgreat : 400 < exponent
  · have hlimit := patternLimit_le_patternOf hd hgreat
    rw [if_pos hgreat, ofPattern?, dif_neg (by omega)]
  rw [if_neg hgreat]
  by_cases hsmall : exponent < -(digits.log2 + 1100 : Int)
  · rw [if_pos hsmall, patternOf_eq_zero hsmall]
  rw [if_neg hsmall]
  unfold patternOf
  by_cases hsign : 0 ≤ exponent
  · have hneg : (-exponent).toNat = 0 := by omega
    rw [if_pos hsign, hneg, Nat.pow_eq, Nat.pow_zero]
  · have hzero : exponent.toNat = 0 := by omega
    rw [if_neg hsign, hzero, Nat.pow_eq, Nat.pow_zero, Nat.mul_one]

theorem ofPattern?_pattern (x : Double) : ofPattern? x.negative x.pattern = some x :=
  ofPattern?_eq_some_iff.2 ⟨rfl, rfl⟩

end Double

/-! ## The shortest decimal -/

theorem patternOf_of_readsBack {pattern : Nat} {d : Decimal} (h : d.readsBack pattern = true) :
    patternOf d.digits d.exponent = pattern := by
  unfold Decimal.readsBack at h
  rw [beq_iff_eq, Option.map_eq_some_iff, Double.ofDecimal?_eq_ofPattern?] at h
  rcases h with ⟨x, hx, hpattern⟩
  rw [← hpattern]
  exact (Double.ofPattern?_eq_some_iff.1 hx).2.symm

theorem patternOf_units_mul {places : Nat} (h : ∀ n, 2 ^ n * unitsPerOne = 2 ^ (n + places))
    (pattern : Nat) :
    patternOf (units pattern * Nat.pow 5 places) (-places) = pattern := by
  have hunits : unitsPerOne = 2 ^ places := by simpa using h 0
  have hzero : (-places : Int).toNat = 0 := by omega
  have hplaces : (-(-places) : Int).toNat = places := by omega
  have hnum : units pattern * 5 ^ places * 2 ^ places = 10 ^ places * units pattern := by
    rw [Nat.mul_assoc, ← Nat.mul_pow, Nat.mul_comm]
  have hscaled := nearestPattern_mul_mul (Nat.pow_pos (by decide) : 0 < 10 ^ places)
    (units pattern) 1
  unfold patternOf
  rw [hzero, hplaces, hunits, Nat.pow_eq, Nat.pow_zero, Nat.mul_one, hnum]
  rw [Nat.mul_one, nearestPattern_units] at hscaled
  exact hscaled

theorem patternOf_exactDecimal (pattern : Nat) :
    patternOf (exactDecimal pattern).digits (exactDecimal pattern).exponent = pattern := by
  have hdecimal : exactDecimal pattern = ⟨units pattern * Nat.pow 5 1074, -(1074 : Nat)⟩ := rfl
  have hunits := two_pow_mul_unitsPerOne
  rw [hdecimal]
  generalize 1074 = places at hunits ⊢
  exact patternOf_units_mul hunits pattern

theorem patternOf_stripZeros (digits : Nat) (exponent : Int) :
    patternOf (stripZeros digits exponent).digits (stripZeros digits exponent).exponent =
      patternOf digits exponent := by
  fun_induction stripZeros digits exponent with
  | case1 digits exponent h ih =>
    have hten : 10 * (digits / 10) = digits := by omega
    rw [ih, ← patternOf_ten_mul, hten]
  | case2 digits exponent h => rfl

theorem patternOf_getD {found : Option Decimal} {pattern : Nat}
    (h : ∀ d, found = some d → patternOf d.digits d.exponent = pattern) :
    patternOf (found.getD (exactDecimal pattern)).digits
      (found.getD (exactDecimal pattern)).exponent = pattern := by
  cases found with
  | none => exact patternOf_exactDecimal pattern
  | some d => exact h d rfl

theorem shortestDecimal_eq (pattern : Nat) :
    ∃ found : Option Decimal, (∀ d, found = some d → d.readsBack pattern = true) ∧
      shortestDecimal pattern = stripZeros (found.getD (exactDecimal pattern)).digits
        (found.getD (exactDecimal pattern)).exponent := by
  refine ⟨(List.range 17).findSome? fun (more : Nat) =>
    (neighbours pattern (leadingPlace pattern - more)).find? (Decimal.readsBack pattern), ?_, rfl⟩
  intro d hd
  rcases List.exists_of_findSome?_eq_some hd with ⟨more, -, hmore⟩
  exact List.find?_some hmore

/-- The shortest decimal of a double has the pattern of that double. -/
theorem patternOf_shortestDecimal (pattern : Nat) :
    patternOf (shortestDecimal pattern).digits (shortestDecimal pattern).exponent = pattern := by
  rcases shortestDecimal_eq pattern with ⟨found, readsBack, hshortest⟩
  rw [hshortest, patternOf_stripZeros]
  apply patternOf_getD
  intro d hd
  exact patternOf_of_readsBack (readsBack d hd)

end HostSurvey.Number
