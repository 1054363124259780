import HostSurvey.Proofs.Text.Cutting
import HostSurvey.Reading.PerformanceLog
import Mathlib.Data.List.Basic

/-!
# The grammar of lines with readings

A line holds a reading exactly when its trimmed text is a dotted name, an optional qualifier between
brackets, a value and a unit, with blanks between them (`LineParts`). A line may be taken apart in
several ways, as the blanks before and after an absent qualifier do not tell which is which, but all of
them give the same path and the same reading.
-/

namespace HostSurvey.PerformanceLog

open Text

/-! ## The parts of a line -/

/-- What stands between the brackets of a line. -/
structure Brackets where
  before : List Char
  opened : Bool
  body : List Char
  closed : Bool
  after : List Char

namespace Brackets

/-- A double quote, if there is one. -/
def quote (present : Bool) : List Char := if present then ['"'] else []

def content (brackets : Brackets) : List Char :=
  brackets.before ++ (quote brackets.opened ++ (brackets.body ++
    (quote brackets.closed ++ brackets.after)))

/-- A body with a name in it and without a quote, within blanks. -/
structure Lawful (brackets : Brackets) : Prop where
  before : Blanks brackets.before
  after : Blanks brackets.after
  quoteless : '"' ∉ brackets.body
  named : trim brackets.body ≠ []

end Brackets

/-- A value and a unit, with blanks before either of them. -/
structure ReadingParts where
  beforeValue : List Char
  value : List Char
  beforeUnit : List Char
  unit : List Char

namespace ReadingParts

def text (parts : ReadingParts) : List Char :=
  parts.beforeValue ++ (parts.value ++ (parts.beforeUnit ++ parts.unit))

/-- A value is a word that starts with no bracket, and a unit stands on one line. -/
structure Lawful (parts : ReadingParts) : Prop where
  beforeValue : parts.beforeValue ≠ [] ∧ Blanks parts.beforeValue
  value : parts.value ≠ [] ∧ (∀ c ∈ parts.value, isBlank c = false) ∧ parts.value.head? ≠ some '['
  beforeUnit : parts.beforeUnit ≠ [] ∧ Blanks parts.beforeUnit
  unit : (∃ c ∈ parts.unit.head?, isBlank c = false) ∧ '\n' ∉ parts.unit

/-- The words of the unit with one space between each two of them. -/
def unitText (parts : ReadingParts) : String :=
  String.ofList ([' '].intercalate ((parts.unit.splitOnP isBlank).filter (· ≠ [])))

end ReadingParts

/-- What a line is made of. -/
structure LineParts where
  segments : List (List Char)
  beforeBrackets : List Char
  brackets? : Option Brackets
  reading : ReadingParts

namespace LineParts

/-- The brackets with their content, if there are any. -/
def bracketed : Option Brackets → List Char
  | none => []
  | some brackets => '[' :: (brackets.content ++ [']'])

/-- What follows the name. -/
def tailText (parts : LineParts) : List Char :=
  parts.beforeBrackets ++ (bracketed parts.brackets? ++ parts.reading.text)

def text (parts : LineParts) : List Char := ['.'].intercalate parts.segments ++ parts.tailText

/-- The content of the brackets ends at the first closing one. -/
structure LawfulTail (parts : LineParts) : Prop where
  beforeBrackets : Blanks parts.beforeBrackets
  brackets : ∀ brackets ∈ parts.brackets?, brackets.Lawful ∧ ']' ∉ brackets.content
  reading : parts.reading.Lawful

structure Lawful (parts : LineParts) : Prop extends LawfulTail parts where
  segments : parts.segments ≠ []
  segment : ∀ segment ∈ parts.segments, segment ≠ [] ∧
    ∀ c ∈ segment, isBlank c = false ∧ c ≠ '[' ∧ c ≠ '.'

/-- The body between the brackets, trimmed. -/
def qualifier? (parts : LineParts) : Option (List Char) :=
  parts.brackets?.map fun brackets => trim brackets.body

def path (parts : LineParts) : List String :=
  (parts.segments ++ parts.qualifier?.toList).map String.ofList

end LineParts

/-- A word stands for a finite double where it reads as one, and for itself otherwise. -/
inductive Denotes (word : List Char) : Value → Prop
  | number {x : Number.Double} (reads : Number.Double.ofText? word = some x) :
      Denotes word (.number x)
  | text (unread : Number.Double.ofText? word = none) : Denotes word (.text (String.ofList word))

theorem denotes_iff {word : List Char} {value : Value} : Denotes word value ↔ value = valueOf word := by
  unfold valueOf
  apply Iff.intro
  · intro h
    cases h with
    | number reads => rw [reads]
    | text unread => rw [unread]
  · intro h
    subst h
    cases hread : Number.Double.ofText? word with
    | none => exact .text hread
    | some x => exact .number hread

/-! ## Qualifiers -/

namespace Brackets

/-- The body of a text, trimmed at the ends without a quote, stands between the quotes. -/
theorem exists_trim_content (brackets : Brackets) (h : brackets.Lawful) :
    ∃ middle, trim brackets.content = quote brackets.opened ++ (middle ++ quote brackets.closed) ∧
      '"' ∉ middle ∧ trim middle = trim brackets.body := by
  rcases brackets with ⟨before, opened, body, closed, after⟩
  have hquote : isBlank '"' = false := by decide
  have htrim : trim (before ++ (quote opened ++ (body ++ (quote closed ++ after)))) =
      trim (quote opened ++ (body ++ quote closed)) := by
    rw [trim_blanks_append h.before, ← List.append_assoc body, ← List.append_assoc,
      trim_append_blanks h.after]
  rw [content, htrim]
  have hquoteless : '"' ∉ body := h.quoteless
  cases opened with
  | true =>
    cases closed with
    | true =>
      refine ⟨body, trim_eq_self ?_ ?_, hquoteless, rfl⟩
      · simp [quote, hquote]
      · show ∀ c ∈ (['"'] ++ (body ++ ['"'])).getLast?, isBlank c = false
        rw [← List.append_assoc, List.getLast?_concat]
        simp [hquote]
    | false =>
      refine ⟨trimEnd body, ?_, fun hmem => hquoteless (mem_of_mem_trimEnd hmem), trim_trimEnd body⟩
      show trimEnd (trimStart ('"' :: (body ++ []))) = '"' :: (trimEnd body ++ [])
      rw [List.append_nil, List.append_nil, trimStart_eq_self (by simp [hquote]),
        trimEnd_cons hquote]
  | false =>
    cases closed with
    | true =>
      refine ⟨trimStart body, ?_, fun hmem => hquoteless ((List.dropWhile_suffix isBlank).subset hmem),
        trim_trimStart body⟩
      show trimEnd (trimStart (body ++ ['"'])) = trimStart body ++ ['"']
      rw [trimStart_append_cons hquote, trimEnd_eq_self]
      rw [List.getLast?_concat]
      simp [hquote]
    | false =>
      refine ⟨trim body, ?_, fun hmem => hquoteless (mem_of_mem_trim hmem), trim_trim body⟩
      simp [quote]

end Brackets

-- A text without quotes is what is left of it between any quotes.
theorem qualifier?_of_trim {content middle : List Char} {opened closed : Bool}
    (h : trim content = Brackets.quote opened ++ (middle ++ Brackets.quote closed))
    (hquote : '"' ∉ middle) (hname : trim middle ≠ []) :
    qualifier? content = some (trim middle) := by
  have hne : middle ≠ [] := by
    intro h
    subst h
    exact hname rfl
  have hopened : (if (trim content).head? = some '"' then (trim content).tail else trim content) =
      middle ++ Brackets.quote closed := by
    rw [h]
    cases opened with
    | true => simp [Brackets.quote]
    | false =>
      cases middle with
      | nil => exact absurd rfl hne
      | cons c middle =>
        have hc : c ≠ '"' := fun heq => hquote (heq ▸ List.mem_cons_self)
        simp [Brackets.quote, hc]
  have hclosed : (if (middle ++ Brackets.quote closed).getLast? = some '"'
      then (middle ++ Brackets.quote closed).dropLast else middle ++ Brackets.quote closed) =
      middle := by
    cases closed with
    | true => simp [Brackets.quote]
    | false =>
      have hlast : middle.getLast? ≠ some '"' := fun heq => hquote (List.mem_of_getLast? heq)
      simp [Brackets.quote, hlast]
  unfold qualifier?
  simp only [hopened, hclosed]
  rw [if_neg (by simp [hquote, hname])]

theorem qualifier?_content {brackets : Brackets} (h : brackets.Lawful) :
    qualifier? brackets.content = some (trim brackets.body) := by
  rcases brackets.exists_trim_content h with ⟨middle, htrim, hquote, hsame⟩
  rw [← hsame]
  exact qualifier?_of_trim htrim hquote (hsame ▸ h.named)

theorem exists_opened (cs : List Char) :
    ∃ opened, cs = Brackets.quote opened ++ (if cs.head? = some '"' then cs.tail else cs) := by
  by_cases h : cs.head? = some '"'
  · refine ⟨true, ?_⟩
    rw [if_pos h]
    rcases List.head?_eq_some_iff.1 h with ⟨rest, rfl⟩
    rfl
  · refine ⟨false, ?_⟩
    rw [if_neg h]
    rfl

theorem exists_closed (cs : List Char) :
    ∃ closed, cs = (if cs.getLast? = some '"' then cs.dropLast else cs) ++ Brackets.quote closed := by
  by_cases h : cs.getLast? = some '"'
  · refine ⟨true, ?_⟩
    rw [if_pos h]
    exact (List.dropLast_append_getLast? '"' h).symm
  · refine ⟨false, ?_⟩
    rw [if_neg h]
    exact (List.append_nil cs).symm

theorem exists_brackets {content name : List Char} (h : qualifier? content = some name) :
    ∃ brackets : Brackets, brackets.Lawful ∧ brackets.content = content := by
  unfold qualifier? at h
  dsimp only at h
  rcases exists_trim_between content with ⟨before, after, hbefore, hafter, hcontent⟩
  rcases exists_opened (trim content) with ⟨opened, hopened⟩
  generalize (if (trim content).head? = some '"' then (trim content).tail else trim content) = cs
    at h hopened
  rcases exists_closed cs with ⟨closed, hclosed⟩
  generalize (if cs.getLast? = some '"' then cs.dropLast else cs) = body at h hclosed
  split at h
  · cases h
  · next hbody =>
    rcases not_or.1 hbody with ⟨hquoteless, hnamed⟩
    refine ⟨⟨before, opened, body, closed, after⟩, ⟨hbefore, hafter, hquoteless, hnamed⟩, ?_⟩
    show before ++ (Brackets.quote opened ++ (body ++ (Brackets.quote closed ++ after))) = content
    rw [← List.append_assoc body, ← hclosed, ← List.append_assoc (Brackets.quote opened), ← hopened,
      ← hcontent]

/-! ## Readings -/

theorem head?_value_append {parts : ReadingParts} (h : parts.Lawful) (rest : List Char) :
    ∀ c ∈ (parts.value ++ rest).head?, isBlank c = false ∧ c ≠ '[' := by
  intro c hc
  rw [List.head?_append_of_ne_nil _ h.value.1] at hc
  refine ⟨h.value.2.1 c (List.mem_of_mem_head? hc), ?_⟩
  intro h
  subst h
  exact h.value.2.2 hc

theorem trimStart_text {parts : ReadingParts} (h : parts.Lawful) {before : List Char}
    (hb : Blanks before) :
    trimStart (before ++ parts.text) = parts.value ++ (parts.beforeUnit ++ parts.unit) := by
  rw [ReadingParts.text, trimStart_blanks_append hb, trimStart_blanks_append h.beforeValue.2,
    trimStart_eq_self fun c hc => (head?_value_append h _ c hc).1]

theorem reading?_text {parts : ReadingParts} (h : parts.Lawful) {before : List Char}
    (hb : Blanks before) :
    reading? (before ++ parts.text) = some ⟨valueOf parts.value, parts.unitText⟩ := by
  rcases h.unit.1 with ⟨c, hc, hblank⟩
  have hunit : ∀ c ∈ parts.unit.head?, isBlank c = false := by
    intro d hd
    rw [Option.mem_unique hd hc]
    exact hblank
  have hword : ∀ c ∈ parts.value, (!isBlank c) = true := by
    intro d hd
    rw [h.value.2.1 d hd]
    rfl
  have hend : ∀ c ∈ (parts.beforeUnit ++ parts.unit).head?, (!isBlank c) = false := by
    intro d hd
    rw [List.head?_append_of_ne_nil _ h.beforeUnit.1] at hd
    rw [h.beforeUnit.2 d (List.mem_of_mem_head? hd)]
    rfl
  have hne : parts.unit ≠ [] := by
    intro heq
    rw [heq] at hc
    cases hc
  have hlength : (parts.value ++ (parts.beforeUnit ++ parts.unit)).length <
      (before ++ parts.text).length := by
    have hpos := List.length_pos_iff.2 h.beforeValue.1
    simp only [ReadingParts.text, List.length_append]
    omega
  unfold reading?
  simp only [trimStart_text h hb, takeWhile_run hword hend, dropWhile_run hword hend,
    trimStart_blanks_append h.beforeUnit.2, trimStart_eq_self hunit]
  rw [if_pos ⟨hlength, h.value.1, h.value.2.2, hne, h.unit.2⟩, ReadingParts.unitText, fields,
    joinWith_eq_intercalate, pieces_eq_splitOnP]

theorem exists_readingParts {cs : List Char} {reading : Reading} (h : reading? cs = some reading) :
    ∃ parts : ReadingParts, parts.Lawful ∧ parts.text = cs := by
  unfold reading? at h
  dsimp only at h
  split at h
  · next hparts =>
    rcases hparts with ⟨hlength, hvalue, hbracket, hunit, hline⟩
    generalize hrest : (trimStart cs).dropWhile (fun c => !isBlank c) = rest at *
    have hbody : (trimStart cs).takeWhile (fun c => !isBlank c) ++ rest = trimStart cs := by
      rw [← hrest, List.takeWhile_append_dropWhile]
    refine ⟨⟨cs.takeWhile isBlank, (trimStart cs).takeWhile fun c => !isBlank c,
      rest.takeWhile isBlank, trimStart rest⟩, ⟨⟨?_, blanks_takeWhile cs⟩, ⟨hvalue, ?_, hbracket⟩,
      ⟨?_, blanks_takeWhile rest⟩, ?_, hline⟩, ?_⟩
    · -- the body is shorter, so there are blanks before it
      intro hnil
      have hcs := takeWhile_append_trimStart cs
      dsimp only at hnil
      rw [hnil, List.nil_append] at hcs
      rw [hcs] at hlength
      exact Nat.lt_irrefl _ hlength
    · intro c hc
      simpa using List.mem_takeWhile_imp hc
    · -- what ends the value is a blank
      intro hnil
      cases rest with
      | nil => exact hunit rfl
      | cons c rest =>
        have hc := head?_dropWhile_not (fun c => !isBlank c) (trimStart cs) c (by rw [hrest]; rfl)
        rw [List.takeWhile_cons_of_pos (by simpa using hc)] at hnil
        cases hnil
    · rcases List.exists_cons_of_ne_nil hunit with ⟨c, unit, hcons⟩
      have hc : c ∈ (trimStart rest).head? := by rw [hcons]; rfl
      exact ⟨c, hc, head?_trimStart rest c hc⟩
    · rw [ReadingParts.text]
      dsimp only
      rw [takeWhile_append_trimStart, hbody, takeWhile_append_trimStart]
  · cases h

/-! ## Tails -/

theorem head?_tailText {parts : LineParts} (h : parts.LawfulTail) :
    ∀ c ∈ parts.tailText.head?, isNameChar c = false := by
  intro c hc
  have hblanks : ∀ before rest : List Char, before ≠ [] → Blanks before →
      c ∈ (before ++ rest).head? → isNameChar c = false := by
    intro before rest hne hb hmem
    rw [List.head?_append_of_ne_nil _ hne] at hmem
    simp [isNameChar, hb c (List.mem_of_mem_head? hmem)]
  rcases parts with ⟨segments, gap, brackets?, reading⟩
  change c ∈ (gap ++ (LineParts.bracketed brackets? ++ reading.text)).head? at hc
  by_cases hgap : gap = []
  · rw [hgap, List.nil_append] at hc
    cases brackets? with
    | none => exact hblanks _ _ h.reading.beforeValue.1 h.reading.beforeValue.2 hc
    | some brackets =>
      cases Option.some.inj hc
      decide
  · exact hblanks gap _ hgap h.beforeBrackets hc

theorem tail?_tailText {parts : LineParts} (h : parts.LawfulTail) :
    tail? parts.tailText =
      some (parts.qualifier?, ⟨valueOf parts.reading.value, parts.reading.unitText⟩) := by
  rcases parts with ⟨segments, gap, brackets?, reading⟩
  cases brackets? with
  | none =>
    show tail? (gap ++ reading.text) = _
    unfold tail?
    split
    · -- the next word is the value, and it does not start with a bracket
      next body hbody =>
      rw [trimStart_text h.reading h.beforeBrackets] at hbody
      exact absurd rfl (head?_value_append h.reading _ '[' (by rw [hbody]; rfl)).2
    · rw [reading?_text h.reading h.beforeBrackets]
      rfl
  | some brackets =>
    rcases h.brackets brackets rfl with ⟨hbrackets, hclosing⟩
    have hbody : trimStart (gap ++ ('[' :: (brackets.content ++ [']']) ++ reading.text)) =
        '[' :: (brackets.content ++ ']' :: reading.text) := by
      rw [trimStart_blanks_append h.beforeBrackets, trimStart_eq_self]
      · simp
      · intro c hc
        cases Option.some.inj hc
        decide
    have hsplit : splitAtFirst? ']' (brackets.content ++ ']' :: reading.text) =
        some (brackets.content, reading.text) := splitAtFirst?_eq_some_iff.2 ⟨rfl, hclosing⟩
    have hreading : reading? reading.text = some ⟨valueOf reading.value, reading.unitText⟩ :=
      reading?_text h.reading blanks_nil
    show tail? (gap ++ ('[' :: (brackets.content ++ [']']) ++ reading.text)) = _
    rw [tail?, hbody]
    simp only [hsplit, qualifier?_content hbrackets, hreading, Option.bind_eq_bind, Option.bind_some]
    rfl

theorem exists_tail {cs : List Char} {name? : Option (List Char)} {reading : Reading}
    (h : tail? cs = some (name?, reading)) (segments : List (List Char)) :
    ∃ parts : LineParts, parts.LawfulTail ∧ parts.tailText = cs ∧ parts.segments = segments := by
  unfold tail? at h
  split at h
  · next body hbody =>
    rcases Option.bind_eq_some_iff.1 h with ⟨⟨content, rest⟩, hsplit, h⟩
    rcases Option.bind_eq_some_iff.1 h with ⟨name, hname, h⟩
    rcases Option.bind_eq_some_iff.1 h with ⟨found, hreading, -⟩
    rcases splitAtFirst?_eq_some_iff.1 hsplit with ⟨rfl, hclosing⟩
    rcases exists_brackets hname with ⟨brackets, hbrackets, rfl⟩
    rcases exists_readingParts hreading with ⟨parts, hparts, rfl⟩
    refine ⟨⟨segments, cs.takeWhile isBlank, some brackets, parts⟩,
      ⟨blanks_takeWhile cs, ?_, hparts⟩, ?_, rfl⟩
    · intro other hmem
      cases Option.some.inj hmem
      exact ⟨hbrackets, hclosing⟩
    · have hcs := takeWhile_append_trimStart cs
      rw [hbody] at hcs
      simpa [LineParts.tailText, LineParts.bracketed] using hcs
  · rcases Option.map_eq_some_iff.1 h with ⟨found, hreading, -⟩
    rcases exists_readingParts hreading with ⟨parts, hparts, rfl⟩
    refine ⟨⟨segments, [], none, parts⟩, ⟨blanks_nil, ?_, hparts⟩, rfl, rfl⟩
    exact fun other hmem => nomatch hmem

/-! ## Lines -/

theorem isNameChar_of_mem_name {parts : LineParts} (h : parts.Lawful) :
    ∀ c ∈ ['.'].intercalate parts.segments, isNameChar c = true := by
  intro c hc
  rcases mem_intercalate hc with hc | ⟨segment, hmem, hc⟩
  · rw [List.mem_singleton.1 hc]
    decide
  · rcases (h.segment segment hmem).2 c hc with ⟨hblank, hbracket, -⟩
    simp [isNameChar, hblank, hbracket]

theorem line?_of_text {line : List Char} {parts : LineParts} (h : parts.Lawful)
    (htext : parts.text = trim line) :
    line? line = some (parts.path, ⟨valueOf parts.reading.value, parts.reading.unitText⟩) := by
  have hname := isNameChar_of_mem_name h
  have hend := head?_tailText h.toLawfulTail
  have hsegments : [] ∉ parts.segments := fun hmem => (h.segment [] hmem).1 rfl
  have hpieces : pieces (· == '.') (['.'].intercalate parts.segments) = parts.segments :=
    pieces_intercalate h.segments fun segment hmem hdot =>
      ((h.segment segment hmem).2 '.' hdot).2.2 rfl
  unfold line?
  simp only [← htext, LineParts.text, takeWhile_run hname hend, dropWhile_run hname hend, hpieces]
  rw [if_neg hsegments, tail?_tailText h.toLawfulTail]
  rfl

theorem exists_parts {line : List Char} (h : (line? line).isSome) :
    ∃ parts : LineParts, parts.Lawful ∧ parts.text = trim line := by
  rcases Option.isSome_iff_exists.1 h with ⟨⟨path, reading⟩, hline⟩
  unfold line? at hline
  dsimp only at hline
  split at hline
  · cases hline
  · next hsegments =>
    rcases Option.map_eq_some_iff.1 hline with ⟨⟨name?, found⟩, htail, -⟩
    rcases exists_tail htail (pieces (· == '.') ((trim line).takeWhile isNameChar)) with
      ⟨parts, hparts, htext, hsame⟩
    refine ⟨parts, ⟨hparts, ?_, ?_⟩, ?_⟩
    · rw [hsame]
      exact pieces_ne_nil _ _
    · rw [hsame]
      intro segment hmem
      refine ⟨fun hnil => hsegments (hnil ▸ hmem), fun c hc => ?_⟩
      have hname : isNameChar c = true := List.mem_takeWhile_imp (mem_of_mem_pieces hmem hc)
      have hdot : (c == '.') = false := not_break_of_mem_pieces _ _ segment hmem c hc
      simpa [isNameChar, and_assoc] using And.intro hname hdot
    · rw [LineParts.text, hsame, htext, intercalate_pieces, List.takeWhile_append_dropWhile]

/-- A line holds a reading exactly when its trimmed text follows the grammar, and every way to take
it apart gives the same path and the same reading. -/
theorem line?_reads_grammar (line : List Char) :
    ((line? line).isSome ↔ ∃ parts : LineParts, parts.Lawful ∧ parts.text = trim line) ∧
      ∀ parts : LineParts, parts.Lawful → parts.text = trim line →
        ∃ value, Denotes parts.reading.value value ∧
          line? line = some (parts.path, ⟨value, parts.reading.unitText⟩) := by
  refine ⟨⟨exists_parts, ?_⟩, fun parts h htext => ?_⟩
  · intro h
    rcases h with ⟨parts, h, htext⟩
    rw [line?_of_text h htext]
    rfl
  · exact ⟨_, denotes_iff.2 rfl, line?_of_text h htext⟩

/-- A line whose qualifier has a quote at one end only, with more blanks than it needs. -/
def halfQuoted : LineParts where
  segments := ["disk".toList, "dev".toList, "total".toList]
  beforeBrackets := [' ']
  brackets? := some ⟨[' '], false, "vdc".toList, true, [' ']⟩
  reading := ⟨[' ', ' '], "2.339".toList, [' '], "count  / sec".toList⟩

theorem halfQuoted_lawful : halfQuoted.Lawful where
  beforeBrackets := by simp [halfQuoted, Blanks, isBlank]
  brackets := by
    intro brackets hmem
    cases Option.some.inj hmem
    exact ⟨⟨by simp [Blanks, isBlank], by simp [Blanks, isBlank], by decide, by decide⟩, by decide⟩
  reading :=
    { beforeValue := by simp [halfQuoted, Blanks, isBlank]
      value := by simp [halfQuoted, isBlank]
      beforeUnit := by simp [halfQuoted, Blanks, isBlank]
      unit := by simp [halfQuoted, isBlank] }
  segments := by simp [halfQuoted]
  segment := by simp [halfQuoted, isBlank]

/-- The quote is no part of the qualifier, and the words of the unit move together. -/
theorem line?_halfQuoted :
    (line? "\tdisk.dev.total [ vdc\" ]  2.339 count  / sec ".toList).isSome ∧
    ∃ value, Denotes "2.339".toList value ∧
      line? "\tdisk.dev.total [ vdc\" ]  2.339 count  / sec ".toList =
        some (["disk", "dev", "total", "vdc"], ⟨value, "count / sec"⟩) := by
  have htext : halfQuoted.text = trim "\tdisk.dev.total [ vdc\" ]  2.339 count  / sec ".toList := by
    cbv
  have reads := line?_reads_grammar "\tdisk.dev.total [ vdc\" ]  2.339 count  / sec ".toList
  exact ⟨reads.1.2 ⟨halfQuoted, halfQuoted_lawful, htext⟩, reads.2 halfQuoted halfQuoted_lawful htext⟩

end HostSurvey.PerformanceLog
