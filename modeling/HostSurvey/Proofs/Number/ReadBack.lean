import HostSurvey.Number.Layout
import HostSurvey.Number.Reading
import HostSurvey.Proofs.Number.Decimals
import HostSurvey.Text.Blank
import Mathlib.Data.List.Basic

/-!
# Written doubles read back

The text of a double is read as that double, with its sign and all of its bits. The text has one of
four forms, by the place of its first digit; each of them is read as the same decimal.
-/

namespace HostSurvey.Number

/-! ## Digits -/

theorem natOfDigits_eq (cs : List Char) : natOfDigits cs = Nat.ofDigitChars 10 cs 0 := by
  unfold natOfDigits Nat.ofDigitChars
  simp only [Nat.mul_comm]

theorem natOfDigits_digitsOf (n : Nat) : natOfDigits (digitsOf n) = n := by
  rw [natOfDigits_eq]
  exact Nat.ofDigitChars_ten_toDigits

theorem natOfDigits_append_zeros (cs : List Char) (count : Nat) :
    natOfDigits (cs ++ List.replicate count '0') = natOfDigits cs * 10 ^ count := by
  rw [natOfDigits_eq, natOfDigits_eq, Nat.ofDigitChars_append, Nat.ofDigitChars_replicate_zero,
    Nat.mul_comm]

theorem natOfDigits_zeros_append (cs : List Char) (count : Nat) :
    natOfDigits (List.replicate count '0' ++ cs) = natOfDigits cs := by
  rw [natOfDigits_eq, natOfDigits_eq, Nat.ofDigitChars_append, Nat.ofDigitChars_replicate_zero,
    Nat.mul_zero]

theorem isDigit_of_mem_digitsOf {n : Nat} : ∀ c ∈ digitsOf n, c.isDigit = true :=
  fun _ h => Nat.isDigit_of_mem_toDigits (by decide) (by decide) h

theorem digitsOf_ne_nil (n : Nat) : digitsOf n ≠ [] := Nat.toDigits_ne_nil

theorem isDigit_of_mem_zeros {count : Nat} : ∀ c ∈ List.replicate count '0', c.isDigit = true := by
  intro c h
  rw [List.eq_of_mem_replicate h]
  decide

theorem isDigit_of_mem_zero : ∀ c ∈ ['0'], c.isDigit = true := by
  intro c h
  rw [List.mem_singleton.1 h]
  decide

/-! ## The parts of a text -/

theorem splitSign_signText (negative : Bool) {body : List Char} (hbody : body ≠ [])
    (hdigits : ∀ c ∈ body.head?, c.isDigit = true) :
    splitSign (signText negative ++ body) = (negative, body) := by
  cases negative with
  | true => rfl
  | false =>
    cases body with
    | nil => exact absurd rfl hbody
    | cons c cs =>
      have hc := hdigits c rfl
      show splitSign (c :: cs) = (false, c :: cs)
      unfold splitSign
      split
      · rename_i heq
        cases heq
        exact absurd hc (by decide)
      · rename_i heq
        cases heq
        exact absurd hc (by decide)
      · rfl

theorem readExponent?_signed (place : Int) :
    readExponent? ('e' :: (if place < 0 then '-' else '+') :: digitsOf place.natAbs) =
      some place := by
  have hall : (digitsOf place.natAbs).all Char.isDigit = true :=
    List.all_eq_true.2 isDigit_of_mem_digitsOf
  by_cases h : place < 0
  · rw [if_pos h]
    simp only [readExponent?, splitSign, true_or, digitsOf_ne_nil, ne_eq, not_false_eq_true, hall,
      and_self, if_true, natOfDigits_digitsOf]
    congr 1
    omega
  · rw [if_neg h]
    simp only [readExponent?, splitSign, true_or, digitsOf_ne_nil, ne_eq, not_false_eq_true, hall,
      and_self, if_true, natOfDigits_digitsOf, Bool.false_eq_true, if_false]
    congr 1
    omega

namespace Double

section Parts

variable (negative : Bool) {whole fraction tail : List Char} (hwhole : whole ≠ [])
  (hw : ∀ c ∈ whole, c.isDigit = true)

include hwhole hw

theorem ofText?_point (hf : ∀ c ∈ fraction, c.isDigit = true)
    (htail : ∀ c ∈ tail.head?, c.isDigit = false) :
    ofText? (signText negative ++ (whole ++ '.' :: (fraction ++ tail))) =
      (readExponent? tail).bind fun exponent =>
        ofPattern? negative (patternOf (natOfDigits (whole ++ fraction))
          (exponent - fraction.length)) := by
  have hhead : ∀ c ∈ (whole ++ '.' :: (fraction ++ tail)).head?, c.isDigit = true := by
    intro c hc
    rw [List.head?_append_of_ne_nil _ hwhole] at hc
    exact hw c (List.mem_of_head? hc)
  have hpoint : ∀ c ∈ ('.' :: (fraction ++ tail)).head?, c.isDigit = false := by
    intro c hc
    cases hc
    decide
  unfold ofText?
  rw [splitSign_signText negative (by simp) hhead]
  dsimp only
  rw [Text.takeWhile_run hw hpoint, Text.dropWhile_run hw hpoint]
  simp only [splitFraction, Text.takeWhile_run hf htail, Text.dropWhile_run hf htail, hwhole,
    false_and, if_false, ofDecimal?_eq_ofPattern?]

theorem ofText?_pointless (htail : ∀ c ∈ tail.head?, c.isDigit = false ∧ c ≠ '.') :
    ofText? (signText negative ++ (whole ++ tail)) =
      (readExponent? tail).bind fun exponent =>
        ofPattern? negative (patternOf (natOfDigits whole) exponent) := by
  have hhead : ∀ c ∈ (whole ++ tail).head?, c.isDigit = true := by
    intro c hc
    rw [List.head?_append_of_ne_nil _ hwhole] at hc
    exact hw c (List.mem_of_head? hc)
  have hdigit : ∀ c ∈ tail.head?, c.isDigit = false := fun c hc => (htail c hc).1
  have hfraction : splitFraction tail = ([], tail) := by
    unfold splitFraction
    split
    · exact absurd rfl (htail '.' rfl).2
    · rfl
  unfold ofText?
  rw [splitSign_signText negative (by simp [hwhole]) hhead]
  dsimp only
  rw [Text.takeWhile_run hw hdigit, Text.dropWhile_run hw hdigit, hfraction]
  simp [hwhole, ofDecimal?_eq_ofPattern?]

theorem ofText?_point_end (hf : ∀ c ∈ fraction, c.isDigit = true) :
    ofText? (signText negative ++ (whole ++ '.' :: fraction)) =
      ofPattern? negative (patternOf (natOfDigits (whole ++ fraction)) (-fraction.length)) := by
  have hend : ∀ c ∈ ([] : List Char).head?, c.isDigit = false := nofun
  have hread := ofText?_point negative hwhole hw hf hend
  rw [List.append_nil, readExponent?, Option.bind_some, Int.zero_sub] at hread
  exact hread

end Parts

theorem ofText?_mantissa {negative : Bool} {digits tail : List Char} (hdigits : digits ≠ [])
    (hd : ∀ c ∈ digits, c.isDigit = true)
    (htail : ∀ c ∈ tail.head?, c.isDigit = false ∧ c ≠ '.') :
    ofText? (signText negative ++ (mantissa digits ++ tail)) =
      (readExponent? tail).bind fun exponent =>
        ofPattern? negative (patternOf (natOfDigits digits) (exponent - (digits.length - 1))) := by
  cases digits with
  | nil => exact absurd rfl hdigits
  | cons first rest =>
    cases rest with
    | nil =>
      have hread := ofText?_pointless negative hdigits hd htail
      simpa [mantissa] using hread
    | cons second rest =>
      have hfirst : ∀ c ∈ [first], c.isDigit = true := by
        intro c hc
        rw [List.mem_singleton.1 hc]
        exact hd first List.mem_cons_self
      have hrest : ∀ c ∈ second :: rest, c.isDigit = true :=
        fun c hc => hd c (List.mem_cons_of_mem _ hc)
      have hread := ofText?_point negative (List.cons_ne_nil first []) hfirst hrest
        fun c hc => (htail c hc).1
      simpa [mantissa] using hread

/-! ## The four forms -/

section Forms

variable (negative : Bool) (d : Decimal)

-- Zeros up to the point, and one more after it.
theorem ofText?_whole (h : 0 ≤ d.exponent) :
    ofText? (signText negative ++ (digitsOf d.digits ++ List.replicate d.exponent.toNat '0' ++
      ['.', '0'])) = ofPattern? negative (patternOf d.digits d.exponent) := by
  have hwhole : digitsOf d.digits ++ List.replicate d.exponent.toNat '0' ≠ [] := by
    simp [digitsOf_ne_nil]
  have hw : ∀ c ∈ digitsOf d.digits ++ List.replicate d.exponent.toNat '0', c.isDigit = true := by
    intro c hc
    rcases List.mem_append.1 hc with hc | hc
    · exact isDigit_of_mem_digitsOf c hc
    · exact isDigit_of_mem_zeros c hc
  have hf : ∀ c ∈ List.replicate 1 '0', c.isDigit = true := isDigit_of_mem_zeros
  have hread := ofText?_point_end negative hwhole hw hf
  have hvalue : -((List.replicate 1 '0').length : Int) + (d.exponent.toNat + 1 : Nat) =
      d.exponent := by
    rw [List.length_replicate]
    omega
  rw [List.append_assoc _ _ (List.replicate 1 '0'), List.replicate_append_replicate,
    natOfDigits_append_zeros, natOfDigits_digitsOf, patternOf_mul_ten_pow, hvalue] at hread
  exact hread

-- The point among the digits.
theorem ofText?_among {count : Nat} (hcount : 0 < count)
    (hexponent : d.exponent = -((digitsOf d.digits).drop count).length) :
    ofText? (signText negative ++ ((digitsOf d.digits).take count ++
      '.' :: (digitsOf d.digits).drop count)) =
        ofPattern? negative (patternOf d.digits d.exponent) := by
  have hdigits : ∀ c ∈ digitsOf d.digits, c.isDigit = true := isDigit_of_mem_digitsOf
  have hwhole : (digitsOf d.digits).take count ≠ [] := by
    intro hnil
    rcases List.take_eq_nil_iff.1 hnil with hzero | hnone
    · omega
    · exact digitsOf_ne_nil _ hnone
  rw [ofText?_point_end negative hwhole (fun c hc => hdigits c (List.mem_of_mem_take hc))
    (fun c hc => hdigits c (List.mem_of_mem_drop hc)), List.take_append_drop,
    natOfDigits_digitsOf, ← hexponent]

-- Zeros from the point to the digits.
theorem ofText?_fraction {count : Nat}
    (hexponent : d.exponent = -(count + (digitsOf d.digits).length : Nat)) :
    ofText? (signText negative ++ '0' :: '.' :: (List.replicate count '0' ++ digitsOf d.digits)) =
        ofPattern? negative (patternOf d.digits d.exponent) := by
  have hf : ∀ c ∈ List.replicate count '0' ++ digitsOf d.digits, c.isDigit = true := by
    intro c hc
    rcases List.mem_append.1 hc with hc | hc
    · exact isDigit_of_mem_zeros c hc
    · exact isDigit_of_mem_digitsOf c hc
  have hread := ofText?_point_end negative (List.cons_ne_nil '0' []) isDigit_of_mem_zero hf
  have hzeros : ['0'] ++ (List.replicate count '0' ++ digitsOf d.digits) =
      List.replicate (count + 1) '0' ++ digitsOf d.digits := by
    rw [List.replicate_succ]
    rfl
  rw [hzeros, natOfDigits_zeros_append, natOfDigits_digitsOf, List.length_append,
    List.length_replicate, ← hexponent] at hread
  exact hread

-- The point behind the first digit, and an exponent.
theorem ofText?_scientific {place : Int}
    (hplace : place = d.exponent + (digitsOf d.digits).length - 1) :
    ofText? (signText negative ++ (mantissa (digitsOf d.digits) ++
      'e' :: (if place < 0 then '-' else '+') :: digitsOf place.natAbs)) =
        ofPattern? negative (patternOf d.digits d.exponent) := by
  have htail : ∀ c ∈ ('e' :: (if place < 0 then '-' else '+') :: digitsOf place.natAbs).head?,
      c.isDigit = false ∧ c ≠ '.' := by
    intro c hc
    cases hc
    decide
  have hvalue : place - ((digitsOf d.digits).length - 1) = d.exponent := by omega
  rw [ofText?_mantissa (digitsOf_ne_nil _) isDigit_of_mem_digitsOf htail, readExponent?_signed,
    Option.bind_some, natOfDigits_digitsOf, hvalue]

theorem ofText?_signText_text :
    ofText? (signText negative ++ d.text) =
      ofPattern? negative (patternOf d.digits d.exponent) := by
  have hlength := List.length_pos_iff.2 (digitsOf_ne_nil d.digits)
  unfold Decimal.text
  dsimp only
  generalize hplace : d.exponent + (digitsOf d.digits).length - 1 = place
  split
  · split
    · rename_i h
      exact ofText?_whole negative d h
    · split
      · rename_i h
        apply ofText?_among negative d (by omega)
        rw [List.length_drop]
        omega
      · apply ofText?_fraction
        omega
  · exact ofText?_scientific negative d hplace.symm

end Forms

/-! ## The text of a double -/

/-- The text of a double is read as that double. -/
theorem ofText?_text (x : Double) : ofText? x.text = some x := by
  unfold text
  by_cases h : x.pattern = 0
  · have hzero : ofText? (signText x.negative ++ ['0', '.', '0']) = _ :=
      ofText?_point_end x.negative (List.cons_ne_nil '0' []) isDigit_of_mem_zero
        isDigit_of_mem_zero
    have hvalue : natOfDigits (['0'] ++ ['0']) = 0 := rfl
    rw [if_pos h, hzero, hvalue, patternOf_zero, ← h, ofPattern?_pattern]
  · rw [if_neg h, ofText?_signText_text, patternOf_shortestDecimal, ofPattern?_pattern]

theorem text_injective : Function.Injective text := by
  intro x y h
  have hread := ofText?_text x
  rw [h, ofText?_text y] at hread
  exact (Option.some.inj hread).symm

end Double

end HostSurvey.Number
