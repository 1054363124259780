import HostSurvey.Proofs.Text.Digits
import HostSurvey.Reading.PinnedRelease

/-!
# The versions of a pinned release

The pinned release stands on the first line that starts with `Release:` (`IsPinned`). Its leading digits
spell the major version, and the digits after a point that follows them the minor one (`Reads`). A
release that is written from two numbers is read back as these numbers, whatever follows them, and a
number that is too large is no version.
-/

namespace HostSurvey.PinnedRelease

open Text

variable {lines : List String} {set : List Char} {pinned : PinnedRelease}

/-! ## The versions -/

/-- A point and then digits that spell a number come next. -/
def SpellsMinor (rest : List Char) (n : Nat) : Prop :=
  ∃ text digits further, rest = '.' :: text ∧ Leads digits further text ∧ Spells wordLimit digits n

/-- The release is the whole text, its leading digits spell the major version, and what follows them
spells the minor version, unless there is no major one. -/
def Reads (set : List Char) (pinned : PinnedRelease) : Prop :=
  pinned.set = String.ofList set ∧
    ∃ digits rest, Leads digits rest set ∧
      (∀ n, pinned.major = some n ↔ Spells wordLimit digits n) ∧
      ∀ n, pinned.minor = some n ↔ (∃ major, Spells wordLimit digits major) ∧ SpellsMinor rest n

theorem fst_leadingNumber_eq_some_iff {digits rest text : List Char} (h : Leads digits rest text)
    {n : Nat} : (leadingNumber wordLimit text).1 = some n ↔ Spells wordLimit digits n := by
  rw [leadingNumber_of_leads h]
  exact toOption_readNumeral_eq_some_iff (by decide) h.unsigned

theorem minor?_eq_some_iff {rest : List Char} {n : Nat} :
    minor? rest = some n ↔ SpellsMinor rest n := by
  rw [minor?, Option.bind_eq_some_iff]
  simp only [after?_eq_some_iff, List.singleton_append]
  apply Iff.intro
  · intro h
    rcases h with ⟨text, hrest, hnumber⟩
    have hleads := leads_leading text
    exact ⟨text, _, _, hrest, hleads, (fst_leadingNumber_eq_some_iff hleads).1 hnumber⟩
  · intro h
    rcases h with ⟨text, digits, further, hrest, hleads, hspells⟩
    exact ⟨text, hrest, (fst_leadingNumber_eq_some_iff hleads).2 hspells⟩

theorem ofSet_of_leads {digits rest : List Char} (h : Leads digits rest set) :
    ofSet set = ⟨String.ofList set, (leadingNumber wordLimit set).1,
      (leadingNumber wordLimit set).1.bind fun _ => minor? rest⟩ := by
  rw [ofSet]
  simp only [leadingNumber_of_leads h]

theorem reads_ofSet (set : List Char) : Reads set (ofSet set) := by
  have hleads := leads_leading set
  rw [ofSet_of_leads hleads]
  refine ⟨rfl, _, _, hleads, fun n => fst_leadingNumber_eq_some_iff hleads, ?_⟩
  intro n
  rw [Option.bind_eq_some_iff]
  simp only [fst_leadingNumber_eq_some_iff hleads, minor?_eq_some_iff, exists_and_right]

theorem Reads.unique {other : PinnedRelease} (h : Reads set pinned) (h' : Reads set other) :
    pinned = other := by
  rcases h with ⟨hset, digits, rest, hleads, hmajor, hminor⟩
  rcases h' with ⟨hset', digits', rest', hleads', hmajor', hminor'⟩
  rcases hleads.unique hleads' with ⟨rfl, rfl⟩
  have heq : pinned.set = other.set := hset.trans hset'.symm
  have hmajorEq : pinned.major = other.major := by
    apply Option.ext
    intro n
    exact (hmajor n).trans (hmajor' n).symm
  have hminorEq : pinned.minor = other.minor := by
    apply Option.ext
    intro n
    exact (hminor n).trans (hminor' n).symm
  cases pinned
  cases other
  cases heq
  cases hmajorEq
  cases hminorEq
  rfl

theorem reads_iff : Reads set pinned ↔ ofSet set = pinned := by
  apply Iff.intro
  · intro h
    exact (reads_ofSet set).unique h
  · intro h
    subst h
    exact reads_ofSet set

theorem Reads.isSome_major (h : Reads set pinned) (hminor : pinned.minor.isSome = true) :
    pinned.major.isSome = true := by
  rcases h with ⟨-, digits, rest, -, hmajor, hminor'⟩
  rcases Option.isSome_iff_exists.1 hminor with ⟨n, hn⟩
  rcases (hminor' n).1 hn with ⟨⟨major, hspells⟩, -⟩
  exact Option.isSome_iff_exists.2 ⟨major, (hmajor major).2 hspells⟩

theorem not_spells_of_le {digits : List Char}
    (h : wordLimit ≤ Nat.ofDigitChars 10 digits 0) (n : Nat) : ¬ Spells wordLimit digits n := by
  intro hspells
  have hvalue := hspells.value
  have hlt := hspells.lt
  omega

theorem Reads.none_of_large_major (h : Reads set pinned) {digits rest : List Char}
    (hleads : Leads digits rest set) (hlarge : wordLimit ≤ Nat.ofDigitChars 10 digits 0) :
    pinned.major = none ∧ pinned.minor = none := by
  rcases h with ⟨-, digits', rest', hleads', hmajor, hminor⟩
  rcases hleads.unique hleads' with ⟨rfl, rfl⟩
  apply And.intro
  · apply Option.eq_none_iff_forall_ne_some.2
    intro n hn
    exact not_spells_of_le hlarge n ((hmajor n).1 hn)
  · apply Option.eq_none_iff_forall_ne_some.2
    intro n hn
    rcases (hminor n).1 hn with ⟨⟨major, hspells⟩, -⟩
    exact not_spells_of_le hlarge major hspells

theorem Reads.none_of_large_minor (h : Reads set pinned) {digits text digits' further : List Char}
    (hleads : Leads digits ('.' :: text) set) (hleads' : Leads digits' further text)
    (hlarge : wordLimit ≤ Nat.ofDigitChars 10 digits' 0) : pinned.minor = none := by
  rcases h with ⟨-, _, _, hsame, -, hminor⟩
  rcases hleads.unique hsame with ⟨rfl, rfl⟩
  apply Option.eq_none_iff_forall_ne_some.2
  intro n hn
  rcases (hminor n).1 hn with ⟨-, _, _, _, heq, htext, hspells⟩
  cases heq
  rcases hleads'.unique htext with ⟨rfl, -⟩
  exact not_spells_of_le hlarge n hspells

/-! ## The line -/

/-- The text follows `Release:` on the first line that starts so. -/
def IsPinned (lines : List String) (text : List Char) : Prop :=
  ∃ before line after, lines = before ++ line :: after ∧
    (∀ other ∈ before, ¬ "Release:".toList <+: trim other.toList) ∧
    trim line.toList = "Release:".toList ++ text

theorem findSome?_eq_some_iff_isPinned {text : List Char} :
    (lines.map String.toList).findSome? (fun line => after? "Release:".toList (trim line)) = some text ↔
      IsPinned lines text := by
  rw [List.findSome?_map, List.findSome?_eq_some_iff]
  simp only [Function.comp_apply, after?_eq_some_iff, after?_eq_none_iff]
  apply Iff.intro
  · intro h
    rcases h with ⟨before, line, after, hlines, htext, hbefore⟩
    exact ⟨before, line, after, hlines, hbefore, htext⟩
  · intro h
    rcases h with ⟨before, line, after, hlines, hbefore, htext⟩
    exact ⟨before, line, after, hlines, htext, hbefore⟩

theorem IsPinned.unique {text other : List Char} (h : IsPinned lines text) (h' : IsPinned lines other) :
    text = other := by
  have hfound := findSome?_eq_some_iff_isPinned.2 h
  rw [findSome?_eq_some_iff_isPinned.2 h'] at hfound
  exact (Option.some.inj hfound).symm

theorem exists_isPinned (h : ∃ line ∈ lines, "Release:".toList <+: trim line.toList) :
    ∃ text, IsPinned lines text := by
  cases hfound : (lines.map String.toList).findSome? fun line => after? "Release:".toList (trim line) with
  | none =>
    rcases h with ⟨line, hmem, hlead⟩
    rw [List.findSome?_map, List.findSome?_eq_none_iff] at hfound
    exact absurd hlead (after?_eq_none_iff.1 (hfound line hmem))
  | some text => exact ⟨text, findSome?_eq_some_iff_isPinned.1 hfound⟩

theorem IsPinned.exists_lead {text : List Char} (h : IsPinned lines text) :
    ∃ line ∈ lines, "Release:".toList <+: trim line.toList := by
  rcases h with ⟨before, line, after, rfl, -, hline⟩
  exact ⟨line, List.mem_append_right before List.mem_cons_self, text, hline.symm⟩

theorem setOf?_eq_some_iff : setOf? (lines.map String.toList) = some set ↔
    ∃ text, IsPinned lines text ∧ trim text = set := by
  rw [setOf?, Option.map_eq_some_iff]
  simp only [findSome?_eq_some_iff_isPinned]

theorem ofLines?_eq_some_iff : ofLines? lines = some pinned ↔
    ∃ text, IsPinned lines text ∧ ¬ Blanks text ∧ Reads (trim text) pinned := by
  have hset : ofLines? lines = some pinned ↔
      ∃ set, setOf? (lines.map String.toList) = some set ∧ set ≠ [] ∧ ofSet set = pinned := by
    unfold ofLines?
    cases setOf? (lines.map String.toList) with
    | none => simp
    | some set =>
      cases set with
      | nil => simp
      | cons c cs => simp
  rw [hset]
  apply Iff.intro
  · intro h
    rcases h with ⟨set, hset, hne, hpinned⟩
    rcases setOf?_eq_some_iff.1 hset with ⟨text, htext, rfl⟩
    exact ⟨text, htext, fun hblanks => hne (trim_eq_nil_iff.2 hblanks), reads_iff.2 hpinned⟩
  · intro h
    rcases h with ⟨text, htext, hne, hreads⟩
    exact ⟨trim text, setOf?_eq_some_iff.2 ⟨text, htext, rfl⟩,
      fun hnil => hne (trim_eq_nil_iff.1 hnil), reads_iff.1 hreads⟩

theorem ofLines?_eq_none_iff : ofLines? lines = none ↔
    (∀ line ∈ lines, ¬ "Release:".toList <+: trim line.toList) ∨
      ∃ text, IsPinned lines text ∧ Blanks text := by
  rw [Option.eq_none_iff_forall_ne_some]
  simp only [ne_eq, ofLines?_eq_some_iff]
  apply Iff.intro
  · intro h
    by_cases hlead : ∃ line ∈ lines, "Release:".toList <+: trim line.toList
    · rcases exists_isPinned hlead with ⟨text, htext⟩
      refine .inr ⟨text, htext, ?_⟩
      by_contra hne
      exact h (ofSet (trim text)) ⟨text, htext, hne, reads_ofSet (trim text)⟩
    · exact .inl fun line hmem hstarts => hlead ⟨line, hmem, hstarts⟩
  · intro h pinned h'
    rcases h' with ⟨other, hother, hne, -⟩
    rcases h with hnone | ⟨text, htext, hblanks⟩
    · rcases hother.exists_lead with ⟨line, hmem, hlead⟩
      exact hnone line hmem hlead
    · cases htext.unique hother
      exact hne hblanks

/-! ## Writing and reading back -/

/-- The line pins the text, with blanks before `Release:` and on both sides of the text. -/
def Pins (line text : String) : Prop :=
  ∃ before gap after, Blanks before ∧ Blanks gap ∧ Blanks after ∧
    line.toList = before ++ ("Release:".toList ++ (gap ++ (text.toList ++ after)))

theorem Pins.isPinned {line text : String} (h : Pins line text) :
    ∃ found, IsPinned [line] found ∧ trim found = trim text.toList := by
  rcases h with ⟨before, gap, after, hbefore, hgap, hafter, hline⟩
  refine ⟨trimEnd (gap ++ (text.toList ++ after)), ⟨[], line, [], rfl, ?_, ?_⟩, ?_⟩
  · intro other hmem
    cases hmem
  · rw [hline, trim_blanks_append hbefore, trim_append_of_blankless (by decide) (by simp [isBlank])]
  · rw [trim_trimEnd, trim_blanks_append hgap, trim_append_blanks hafter]

theorem ofLines?_of_pins {line text : String} (h : Pins line text) (hne : trim text.toList ≠ [])
    (hreads : Reads (trim text.toList) pinned) : ofLines? [line] = some pinned := by
  rcases h.isPinned with ⟨found, hfound, hsame⟩
  refine ofLines?_eq_some_iff.2 ⟨found, hfound, ?_, ?_⟩
  · intro hblanks
    rw [trim_eq_nil_iff.2 hblanks] at hsame
    exact hne hsame.symm
  · rwa [hsame]

/-- Digits are no blanks, so blanks are only taken from what follows them. -/
theorem trim_digits_append {digits : List Char} (hne : digits ≠ [])
    (hdigit : ∀ c ∈ digits, c.isDigit = true) (rest : List Char) :
    trim (digits ++ rest) = digits ++ trimEnd rest :=
  trim_append_of_blankless hne (fun c hc => isBlank_of_isDigit (hdigit c hc)) rest

theorem ofLines?_of_pins_number {line : String} {rest : List Char} {major : Nat} {minor : Option Nat}
    (hmajor : major < wordLimit) (h : Pins line (String.ofList (Nat.toDigits 10 major ++ rest)))
    (hstop : ∀ c ∈ rest.head?, c.isDigit = false)
    (hminor : ∀ n, minor = some n ↔ SpellsMinor (trimEnd rest) n) :
    ofLines? [line] =
      some ⟨String.ofList (trim (Nat.toDigits 10 major ++ rest)), some major, minor⟩ := by
  have hspells := spells_toDigits hmajor
  have htrim := trim_digits_append hspells.ne_nil hspells.digit rest
  apply ofLines?_of_pins h
  · rw [String.toList_ofList, htrim]
    exact fun hnil => hspells.ne_nil (List.append_eq_nil_iff.1 hnil).1
  · rw [String.toList_ofList, htrim]
    refine ⟨rfl, _, _, leads_trimEnd hspells.digit hstop, ?_, ?_⟩
    · intro n
      apply Iff.intro
      · intro h
        cases h
        exact hspells
      · intro hn
        rw [hspells.unique hn]
    · intro n
      rw [hminor n]
      exact ⟨fun hn => ⟨⟨major, hspells⟩, hn⟩, fun hn => hn.2⟩

theorem spellsMinor_toDigits_iff {suffix : List Char} {minor : Nat} (hminor : minor < wordLimit)
    (hstop : ∀ c ∈ suffix.head?, c.isDigit = false) (n : Nat) :
    some minor = some n ↔ SpellsMinor (trimEnd ('.' :: (Nat.toDigits 10 minor ++ suffix))) n := by
  have hspells := spells_toDigits hminor
  have hleads := leads_trimEnd hspells.digit hstop
  rw [trimEnd_cons (by decide),
    trimEnd_append_of_blankless fun c hc => isBlank_of_isDigit (hspells.digit c hc)]
  apply Iff.intro
  · intro h
    cases h
    exact ⟨_, _, _, rfl, hleads, hspells⟩
  · intro h
    rcases h with ⟨text, digits, further, htext, hleads', hspells'⟩
    cases htext
    rcases hleads.unique hleads' with ⟨rfl, -⟩
    rw [hspells.unique hspells']

theorem not_spellsMinor_trimEnd {suffix : List Char}
    (hstop : ∀ c rest, suffix = '.' :: c :: rest → c.isDigit = false) (n : Nat) :
    ¬ SpellsMinor (trimEnd suffix) n := by
  intro h
  rcases h with ⟨text, digits, further, htext, hleads, hspells⟩
  rcases blanks_suffix_trimEnd suffix with ⟨after, -, hsuffix⟩
  rcases List.exists_cons_of_ne_nil hspells.ne_nil with ⟨c, digits', rfl⟩
  rw [htext, hleads.text] at hsuffix
  have hdigit := hspells.digit c List.mem_cons_self
  rw [hstop c (digits' ++ further ++ after) hsuffix] at hdigit
  cases hdigit

/-! ## Every pinned release -/

/-- What holds of a pinned release whatever the lines are: it is a text without blanks at its ends, a
minor version comes with a major one, and numbers that are too large are left out. -/
structure Consistent (pinned : PinnedRelease) : Prop where
  ne_empty : pinned.set ≠ ""
  start : ∀ c ∈ pinned.set.toList.head?, isBlank c = false
  stop : ∀ c ∈ pinned.set.toList.getLast?, isBlank c = false
  major_of_minor : pinned.minor.isSome = true → pinned.major.isSome = true
  none_of_large_major : ∀ digits rest, Leads digits rest pinned.set.toList →
    wordLimit ≤ Nat.ofDigitChars 10 digits 0 → pinned.major = none ∧ pinned.minor = none
  none_of_large_minor : ∀ digits text digits' rest, Leads digits ('.' :: text) pinned.set.toList →
    Leads digits' rest text → wordLimit ≤ Nat.ofDigitChars 10 digits' 0 → pinned.minor = none

theorem Reads.consistent {text : List Char} (h : Reads (trim text) pinned) (hne : ¬ Blanks text) :
    Consistent pinned := by
  have hset : pinned.set.toList = trim text := by rw [h.1, String.toList_ofList]
  exact
    { ne_empty := by
        intro hempty
        rw [hempty] at hset
        exact hne (trim_eq_nil_iff.1 hset.symm)
      start := hset ▸ head?_trim text
      stop := hset ▸ getLast?_trim text
      major_of_minor := h.isSome_major
      none_of_large_major := fun _ _ hleads => h.none_of_large_major (hset ▸ hleads)
      none_of_large_minor := fun _ _ _ _ hleads => h.none_of_large_minor (hset ▸ hleads) }

/-- A release that is written from a major and a minor version, or from a major one alone, is read back
as written, whatever follows the numbers. Of any lines, the first that starts with `Release:` is read
unless nothing follows there, and what is read is consistent. -/
theorem ofLines?_reads_back_versions (lines : List String) :
    (∀ line major minor suffix, major < wordLimit → minor < wordLimit →
      (∀ c ∈ suffix.toList.head?, c.isDigit = false) →
      Pins line (toString major ++ "." ++ toString minor ++ suffix) →
      ofLines? [line] =
        some ⟨String.ofList (trim (toString major ++ "." ++ toString minor ++ suffix).toList),
          some major, some minor⟩) ∧
    (∀ line major suffix, major < wordLimit → (∀ c ∈ suffix.toList.head?, c.isDigit = false) →
      (∀ c rest, suffix.toList = '.' :: c :: rest → c.isDigit = false) →
      Pins line (toString major ++ suffix) →
      ofLines? [line] =
        some ⟨String.ofList (trim (toString major ++ suffix).toList), some major, none⟩) ∧
    (∀ pinned, ofLines? lines = some pinned ↔
      ∃ text, IsPinned lines text ∧ ¬ Blanks text ∧ Reads (trim text) pinned) ∧
    (ofLines? lines = none ↔
      (∀ line ∈ lines, ¬ "Release:".toList <+: trim line.toList) ∨
        ∃ text, IsPinned lines text ∧ Blanks text) ∧
    ∀ pinned, ofLines? lines = some pinned → Consistent pinned := by
  refine ⟨?_, ?_, fun pinned => ofLines?_eq_some_iff, ofLines?_eq_none_iff, ?_⟩
  · intro line major minor suffix hmajor hminor hstop hpins
    have htext : (toString major ++ "." ++ toString minor ++ suffix).toList =
        Nat.toDigits 10 major ++ '.' :: (Nat.toDigits 10 minor ++ suffix.toList) := by
      simp
    rw [htext]
    apply ofLines?_of_pins_number hmajor
    · rwa [← htext, String.ofList_toList]
    · intro c h
      rcases h with ⟨⟩
      rfl
    · exact spellsMinor_toDigits_iff hminor hstop
  · intro line major suffix hmajor hstop hpoint hpins
    have htext : (toString major ++ suffix).toList = Nat.toDigits 10 major ++ suffix.toList := by
      simp
    rw [htext]
    apply ofLines?_of_pins_number hmajor
    · rwa [← htext, String.ofList_toList]
    · exact hstop
    · intro n
      apply Iff.intro
      · intro h
        cases h
      · intro h
        exact absurd h (not_spellsMinor_trimEnd hpoint n)
  · intro pinned h
    rcases ofLines?_eq_some_iff.1 h with ⟨text, -, hne, hreads⟩
    exact hreads.consistent hne

/-- The largest major version is read back from between tabs, spaces and a suffix, and the number after
it is none. -/
theorem largest_major_read_back :
    ofLines? ["\t Release:  4294967295.0-beta "] =
      some ⟨"4294967295.0-beta", some 4294967295, some 0⟩ ∧
    ofLines? ["Release: 7Server"] = some ⟨"7Server", some 7, none⟩ ∧
    Consistent ⟨"4294967296.4", none, none⟩ := by
  refine ⟨?_, ?_, ?_⟩
  · have hread := (ofLines?_reads_back_versions []).1 "\t Release:  4294967295.0-beta " 4294967295 0
      "-beta" (by decide) (by decide) (by simp)
      ⟨['\t', ' '], [' ', ' '], [' '], by decide, by decide, by decide, by decide +kernel⟩
    have hset : String.ofList (trim (toString 4294967295 ++ "." ++ toString 0 ++ "-beta").toList) =
        "4294967295.0-beta" := by decide +kernel
    rwa [hset] at hread
  · have hread := (ofLines?_reads_back_versions []).2.1 "Release: 7Server" 7 "Server" (by decide)
      (by simp) (by simp) ⟨[], [' '], [], by decide, by decide, by decide, by decide +kernel⟩
    have hset : String.ofList (trim (toString 7 ++ "Server").toList) = "7Server" := by decide +kernel
    rwa [hset] at hread
  · have hread : ofLines? ["", "Release: 4294967296.4"] = some ⟨"4294967296.4", none, none⟩ := by
      decide +kernel
    exact (ofLines?_reads_back_versions ["", "Release: 4294967296.4"]).2.2.2.2 _ hread

end HostSurvey.PinnedRelease
