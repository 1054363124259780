import HostSurvey.Proofs.Text.Cutting
import HostSurvey.Text.DecimalDigit
import HostSurvey.Text.Numeral

/-!
# Numbers in digits

A number below a limit is spelt by ASCII digits (`Spells`), and it is read from them when no sign can
stand before them. Decimal digits of other scripts spell no number here, but like the ASCII ones they
are no blanks.
-/

namespace HostSurvey.Text

variable {limit n : Nat} {digits rest : List Char} {c : Char}

/-! ## Spelling -/

/-- ASCII digits, one at least, whose value is a number below the limit. -/
structure Spells (limit : Nat) (digits : List Char) (n : Nat) : Prop where
  ne_nil : digits ≠ []
  digit : ∀ c ∈ digits, c.isDigit = true
  value : Nat.ofDigitChars 10 digits 0 = n
  lt : n < limit

theorem Spells.unique {m : Nat} (h : Spells limit digits n) (h' : Spells limit digits m) : n = m :=
  h.value.symm.trans h'.value

theorem spells_toDigits (h : n < limit) : Spells limit (Nat.toDigits 10 n) n where
  ne_nil := Nat.toDigits_ne_nil
  digit := fun _ hc => Nat.isDigit_of_mem_toDigits (by decide) (by decide) hc
  value := Nat.ofDigitChars_ten_toDigits
  lt := h

theorem toOption_readNumeral_eq_some_iff (hl : 0 < limit) (hsign : '+' ∉ digits) :
    (readNumeral limit digits).toOption = some n ↔ Spells limit digits n := by
  have hok : (readNumeral limit digits).toOption = some n ↔ readNumeral limit digits = .ok n := by
    cases readNumeral limit digits with
    | error e => simp [Except.toOption]
    | ok m => simp [Except.toOption]
  rw [hok, readNumeral_eq_ok_iff hl]
  apply Iff.intro
  · intro h
    rcases h with ⟨hnumeral, hlt⟩
    cases hnumeral with
    | plain ne all => exact ⟨ne, all, rfl, hlt⟩
    | signed ne all => exact absurd List.mem_cons_self hsign
  · intro h
    rcases h with ⟨ne, all, rfl, hlt⟩
    exact ⟨.plain ne all, hlt⟩

/-! ## Leading numbers -/

/-- A text starts with a run of ASCII digits, which may be empty, and goes on with something else. -/
structure Leads (digits rest text : List Char) : Prop where
  text : text = digits ++ rest
  digit : ∀ c ∈ digits, c.isDigit = true
  stop : ∀ c ∈ rest.head?, c.isDigit = false

theorem leads_leading (text : List Char) :
    Leads (text.takeWhile Char.isDigit) (text.dropWhile Char.isDigit) text where
  text := List.takeWhile_append_dropWhile.symm
  digit := fun _ hc => List.mem_takeWhile_imp hc
  stop := head?_dropWhile_not Char.isDigit text

theorem leadingNumber_of_leads {text : List Char} (h : Leads digits rest text) :
    leadingNumber limit text = ((readNumeral limit digits).toOption, rest) := by
  rw [leadingNumber, h.text, takeWhile_run h.digit h.stop, dropWhile_run h.digit h.stop]

theorem Leads.unique {text digits' rest' : List Char} (h : Leads digits rest text)
    (h' : Leads digits' rest' text) : digits = digits' ∧ rest = rest' := by
  apply And.intro
  · rw [← takeWhile_run h.digit h.stop, ← h.text, h'.text, takeWhile_run h'.digit h'.stop]
  · rw [← dropWhile_run h.digit h.stop, ← h.text, h'.text, dropWhile_run h'.digit h'.stop]

theorem Leads.unsigned {text : List Char} (h : Leads digits rest text) : '+' ∉ digits := by
  intro hmem
  have hdigit := h.digit '+' hmem
  cases hdigit

/-! ## Decimal digits -/

-- No range of digits has one of the blanks in it.
theorem isBlank_of_isDecimalDigit (h : isDecimalDigit c = true) : isBlank c = false := by
  have hapart : ∀ range ∈ decimalDigitRanges, (range.2 < 9 ∨ 13 < range.1) ∧
      (range.2 < 0x20 ∨ 0x20 < range.1) ∧ (range.2 < 0x85 ∨ 0x85 < range.1) ∧
      (range.2 < 0xA0 ∨ 0xA0 < range.1) ∧ (range.2 < 0x1680 ∨ 0x1680 < range.1) ∧
      (range.2 < 0x2000 ∨ 0x3000 < range.1) := by decide
  rcases List.any_eq_true.1 h with ⟨range, hmem, hrange⟩
  have hblank := hapart range hmem
  simp only [Bool.and_eq_true, decide_eq_true_eq] at hrange
  by_contra hnot
  simp only [isBlank, Bool.not_eq_false, Bool.or_eq_true, Bool.and_eq_true, decide_eq_true_eq,
    beq_iff_eq] at hnot
  omega

theorem isBlank_of_isDigit (h : c.isDigit = true) : isBlank c = false :=
  isBlank_of_isDecimalDigit (isDecimalDigit_of_isDigit h)

theorem leads_trimEnd (hdigit : ∀ c ∈ digits, c.isDigit = true)
    (hstop : ∀ c ∈ rest.head?, c.isDigit = false) :
    Leads digits (trimEnd rest) (digits ++ trimEnd rest) where
  text := rfl
  digit := hdigit
  stop := fun c hc => hstop c (head?_trimEnd hc)

end HostSurvey.Text
