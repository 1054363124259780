import HostSurvey.Text.Pieces

/-!
# Bounded numerals

Whole numbers are read from decimal digits, with an optional plus sign, and have to stay below a
limit. The digits are taken from the left, so a text with two faults reports the one that is met
first.
-/

namespace HostSurvey.Text

/-- Why a text is no numeral below the limit. -/
inductive NumeralError
  | empty
  | invalidDigit
  | tooLarge
deriving DecidableEq

def NumeralError.message : NumeralError → String
  | .empty => "cannot parse integer from empty string"
  | .invalidDigit => "invalid digit found in string"
  | .tooLarge => "number too large to fit in target type"

def digitValue? (c : Char) : Option Nat :=
  if c.isDigit then some (c.toNat - '0'.toNat) else none

/-- The number that a value and the digits after it stand for. -/
def readDigits (limit : Nat) : Nat → List Char → Except NumeralError Nat
  | value, [] => .ok value
  | value, c :: cs =>
    match digitValue? c with
    | none => .error .invalidDigit
    | some digit =>
      if value * 10 + digit < limit then readDigits limit (value * 10 + digit) cs
      else .error .tooLarge

/-- The number below the limit that a numeral stands for. -/
def readNumeral (limit : Nat) : List Char → Except NumeralError Nat
  | [] => .error .empty
  | ['+'] => .error .invalidDigit
  | '+' :: cs => readDigits limit 0 cs
  | cs => readDigits limit 0 cs

/-- A numeral is one decimal digit or more, with an optional plus sign, and the number that it stands
for, of any size. -/
inductive Numeral : List Char → Nat → Prop
  | plain {digits : List Char} (ne : digits ≠ []) (all : ∀ c ∈ digits, c.isDigit = true) :
      Numeral digits (Nat.ofDigitChars 10 digits 0)
  | signed {digits : List Char} (ne : digits ≠ []) (all : ∀ c ∈ digits, c.isDigit = true) :
      Numeral ('+' :: digits) (Nat.ofDigitChars 10 digits 0)

/-- The limit of the numbers of a release, which is `2^32`. -/
def wordLimit : Nat := 0x100000000

/-- The limit of sizes and totals, which is `2^64`. -/
def longLimit : Nat := 0x10000000000000000

/-- The leading ASCII digits of a text as a number below the limit, and what follows them. -/
def leadingNumber (limit : Nat) (cs : List Char) : Option Nat × List Char :=
  ((readNumeral limit (cs.takeWhile Char.isDigit)).toOption, cs.dropWhile Char.isDigit)

/-! ## Facts -/

theorem le_ofDigitChars (digits : List Char) (value : Nat) :
    value ≤ Nat.ofDigitChars 10 digits value := by
  induction digits generalizing value with
  | nil => exact Nat.le_refl _
  | cons c digits ih =>
    rw [Nat.ofDigitChars_cons]
    have hstep := ih (10 * value + (c.toNat - '0'.toNat))
    omega

-- A value only grows with more digits, so the limit is met on the way exactly when it is met at the
-- end.
theorem readDigits_eq_ok_iff {limit value : Nat} {cs : List Char} {n : Nat} (hv : value < limit) :
    readDigits limit value cs = .ok n ↔
      (∀ c ∈ cs, c.isDigit = true) ∧ Nat.ofDigitChars 10 cs value = n ∧ n < limit := by
  induction cs generalizing value with
  | nil =>
    rw [readDigits, Nat.ofDigitChars_nil]
    apply Iff.intro
    · intro h
      cases h
      exact ⟨by simp, rfl, hv⟩
    · intro h
      rcases h with ⟨-, rfl, -⟩
      rfl
  | cons c cs ih =>
    rw [readDigits, digitValue?, List.forall_mem_cons, Nat.ofDigitChars_cons]
    by_cases hc : c.isDigit = true
    · rw [if_pos hc, Nat.mul_comm 10 value]
      by_cases hlt : value * 10 + (c.toNat - '0'.toNat) < limit
      · simp only [if_pos hlt, ih hlt, hc, true_and]
      · simp only [if_neg hlt]
        apply Iff.intro
        · intro h
          cases h
        · intro h
          rcases h with ⟨-, rfl, hn⟩
          have hle := le_ofDigitChars cs (value * 10 + (c.toNat - '0'.toNat))
          omega
    · rw [if_neg hc]
      apply Iff.intro
      · intro h
        cases h
      · intro h
        rcases h with ⟨⟨hdigit, -⟩, -⟩
        exact absurd hdigit hc

theorem readNumeral_eq_ok_iff {limit : Nat} {cs : List Char} {n : Nat} (hl : 0 < limit) :
    readNumeral limit cs = .ok n ↔ Numeral cs n ∧ n < limit := by
  apply Iff.intro
  · intro h
    unfold readNumeral at h
    split at h
    · cases h
    · cases h
    · next digits hne =>
      rcases (readDigits_eq_ok_iff hl).1 h with ⟨all, rfl, hlt⟩
      refine ⟨.signed ?_ all, hlt⟩
      intro h
      subst h
      exact hne rfl
    · next hne _ _ =>
      rcases (readDigits_eq_ok_iff hl).1 h with ⟨all, rfl, hlt⟩
      exact ⟨.plain hne all, hlt⟩
  · intro h
    rcases h with ⟨numeral, hlt⟩
    cases numeral with
    | @signed digits ne all =>
      cases digits with
      | nil => exact absurd rfl ne
      | cons c digits => exact (readDigits_eq_ok_iff hl).2 ⟨all, rfl, hlt⟩
    | plain ne all =>
      unfold readNumeral
      split
      · exact absurd rfl ne
      · simp at all
      · simp at all
      · exact (readDigits_eq_ok_iff hl).2 ⟨all, rfl, hlt⟩

end HostSurvey.Text
