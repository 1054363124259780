import HostSurvey.Fact.Basic
import HostSurvey.Proofs.Text.Lines

/-!
# Line breaks of collected text

It does not matter for the lines of a collected text whether they were ended by line feeds or by
carriage returns and line feeds, nor what blanks stand around the text. The first line starts and the
last one ends with a character that is no blank, and lines without a carriage return at the end are
the lines of the text that is made of them.
-/

namespace HostSurvey

namespace Text

/-- A text with a carriage return put before each line feed. -/
def withReturns (cs : List Char) : List Char :=
  cs.flatMap fun c => if c = '\n' then ['\r', '\n'] else [c]

variable {cs : List Char} {c : Char}

theorem withReturns_append (before after : List Char) :
    withReturns (before ++ after) = withReturns before ++ withReturns after :=
  List.flatMap_append

theorem withReturns_cons_of_ne (h : c ≠ '\n') (cs : List Char) :
    withReturns (c :: cs) = c :: withReturns cs := by
  rw [withReturns, List.flatMap_cons, if_neg h]
  rfl

theorem withReturns_of_unbroken (h : '\n' ∉ cs) : withReturns cs = cs := by
  induction cs with
  | nil => rfl
  | cons c cs ih =>
    rw [List.mem_cons, not_or] at h
    rw [withReturns_cons_of_ne (Ne.symm h.1), ih h.2]

theorem withReturns_append_feed {line : List Char} (h : '\n' ∉ line) (rest : List Char) :
    withReturns (line ++ '\n' :: rest) = (line ++ ['\r']) ++ '\n' :: withReturns rest := by
  rw [withReturns_append, withReturns_of_unbroken h, List.append_assoc]
  rfl

theorem lines_withReturns (h : '\r' ∉ cs) : lines (withReturns cs) = lines cs := by
  induction cs using feed_induction with
  | unbroken cs hcs => rw [withReturns_of_unbroken hcs]
  | feed line rest hline ih =>
    rw [List.mem_append, List.mem_cons, not_or, not_or] at h
    have hreturned : '\n' ∉ line ++ ['\r'] := by
      rw [List.mem_append, not_or]
      exact ⟨hline, by decide⟩
    have hlast : line.getLast? ≠ some '\r' := fun hlast => h.1 (List.mem_of_getLast? hlast)
    rw [withReturns_append_feed hline, lines_append_feed hreturned, dropReturn_concat, ih h.2.2,
      lines_append_feed hline, dropReturn_eq_self hlast]

theorem blanks_withReturns (h : Blanks cs) : Blanks (withReturns cs) := by
  intro c hc
  rcases List.mem_flatMap.1 hc with ⟨d, hd, hc⟩
  split at hc
  · have hbreak : ['\r', '\n'].all isBlank = true := rfl
    exact List.all_eq_true.1 hbreak c hc
  · rw [List.mem_singleton.1 hc]
    exact h d hd

theorem ne_feed_of_not_blank (h : isBlank c = false) : c ≠ '\n' := by
  intro h
  subst h
  cases h

-- The ends of a trimmed text are no line feeds, so nothing is put there.
theorem trim_withReturns_trim (cs : List Char) :
    trim (withReturns (trim cs)) = withReturns (trim cs) := by
  apply trim_eq_self
  · cases htrim : trim cs with
    | nil => exact fun c hc => absurd hc (by simp [withReturns])
    | cons first rest =>
      have hfirst : isBlank first = false := head?_trim cs first (by rw [htrim]; rfl)
      rw [withReturns_cons_of_ne (ne_feed_of_not_blank hfirst)]
      intro c hc
      cases hc
      exact hfirst
  · rcases List.eq_nil_or_concat (trim cs) with htrim | ⟨front, last, htrim⟩
    · rw [htrim]
      exact fun c hc => absurd hc (by simp [withReturns])
    · rw [List.concat_eq_append] at htrim
      have hlast : isBlank last = false :=
        getLast?_trim cs last (by rw [htrim, List.getLast?_concat]; rfl)
      rw [htrim, withReturns_append, withReturns_cons_of_ne (ne_feed_of_not_blank hlast)]
      intro c hc
      rw [show withReturns [] = [] from rfl, List.getLast?_concat] at hc
      cases hc
      exact hlast

theorem trim_withReturns (cs : List Char) : trim (withReturns cs) = withReturns (trim cs) := by
  rcases exists_trim_between cs with ⟨before, after, hbefore, hafter, hcs⟩
  calc trim (withReturns cs)
      = trim (withReturns before ++ (withReturns (trim cs) ++ withReturns after)) := by
        rw [← withReturns_append, ← withReturns_append, ← hcs]
    _ = trim (withReturns (trim cs)) := by
        rw [trim_blanks_append (blanks_withReturns hbefore),
          trim_append_blanks (blanks_withReturns hafter)]
    _ = withReturns (trim cs) := trim_withReturns_trim cs

/-! ## The lines of a trimmed text -/

theorem lines_trim_eq_nil_iff : lines (trim cs) = [] ↔ Blanks cs := by
  rw [lines_eq_nil_iff, trim_eq_nil_iff]

theorem head?_head?_lines_trim {line : List Char} (h : (lines (trim cs)).head? = some line) :
    ∃ c, line.head? = some c ∧ isBlank c = false := by
  cases htrim : (trim cs).head? with
  | none =>
    rw [List.head?_eq_none_iff.1 htrim] at h
    cases h
  | some c =>
    have hc : isBlank c = false := head?_trim cs c htrim
    have hreturn : c ≠ '\r' := by
      intro h
      subst h
      cases hc
    exact ⟨c, head?_head?_lines htrim (ne_feed_of_not_blank hc) hreturn h, hc⟩

theorem getLast?_getLast?_lines_trim {line : List Char} (h : (lines (trim cs)).getLast? = some line) :
    ∃ c, line.getLast? = some c ∧ isBlank c = false := by
  cases htrim : (trim cs).getLast? with
  | none =>
    rw [List.getLast?_eq_none_iff.1 htrim] at h
    cases h
  | some c =>
    have hc : isBlank c = false := getLast?_trim cs c htrim
    exact ⟨c, getLast?_getLast?_lines htrim (ne_feed_of_not_blank hc) h, hc⟩

theorem head?_intercalate_cons {separator first : List Char} (parts : List (List Char))
    (h : first.head? = some c) : (separator.intercalate (first :: parts)).head? = some c := by
  cases first with
  | nil => cases h
  | cons d first =>
    cases parts with
    | nil => rwa [List.intercalate_singleton]
    | cons next parts =>
      rw [List.intercalate_cons_cons]
      exact h

theorem getLast?_intercalate {separator last : List Char} {parts : List (List Char)}
    (hparts : parts.getLast? = some last) (h : last.getLast? = some c) :
    (separator.intercalate parts).getLast? = some c := by
  induction parts with
  | nil => cases hparts
  | cons first parts ih =>
    cases parts with
    | nil =>
      cases hparts
      rwa [List.intercalate_singleton]
    | cons next parts =>
      rw [List.getLast?_cons_cons] at hparts
      rw [List.intercalate_cons_cons, List.getLast?_append, ih hparts]
      rfl

-- Put together again, the lines of a trimmed text leave nothing to trim.
theorem trim_intercalate_lines_trim (cs : List Char) :
    trim (['\n'].intercalate (lines (trim cs))) = ['\n'].intercalate (lines (trim cs)) := by
  cases hhead : (lines (trim cs)).head? with
  | none =>
    rw [List.head?_eq_none_iff.1 hhead]
    rfl
  | some first =>
    rcases head?_head?_lines_trim hhead with ⟨c, hfirst, hc⟩
    rcases List.head?_eq_some_iff.1 hhead with ⟨rest, hlines⟩
    have hlast := List.getLast?_eq_some_getLast (hlines ▸ List.cons_ne_nil first rest)
    rcases getLast?_getLast?_lines_trim hlast with ⟨d, hd, hblank⟩
    apply trim_eq_self
    · intro e he
      rw [hlines, head?_intercalate_cons rest hfirst] at he
      cases he
      exact hc
    · intro e he
      rw [getLast?_intercalate hlast hd] at he
      cases he
      exact hblank

theorem lines_trim_intercalate_lines_trim
    (h : ∀ line ∈ lines (trim cs), line.getLast? ≠ some '\r') :
    lines (trim (['\n'].intercalate (lines (trim cs)))) = lines (trim cs) := by
  rw [trim_intercalate_lines_trim]
  apply lines_intercalate (fun line hline => unbroken_of_mem_lines hline) h
  intro hempty
  rcases getLast?_getLast?_lines_trim hempty with ⟨c, hc, -⟩
  cases hc

end Text

namespace Artifact

theorem linesOfText_withReturns {text : String} (h : '\r' ∉ text.toList) :
    linesOfText (String.ofList (Text.withReturns text.toList)) = linesOfText text := by
  have htrim : '\r' ∉ Text.trim text.toList := fun hmem => h (Text.mem_of_mem_trim hmem)
  rw [linesOfText, String.toList_ofList, Text.trim_withReturns, Text.lines_withReturns htrim,
    linesOfText]

theorem map_toList_linesOfText (text : String) :
    (linesOfText text).map String.toList = Text.lines (Text.trim text.toList) := by
  simp [linesOfText, Function.comp_def]

theorem linesOfText_intercalate {text : String}
    (h : ∀ line ∈ linesOfText text, line.toList.getLast? ≠ some '\r') :
    linesOfText ("\n".intercalate (linesOfText text)) = linesOfText text := by
  have hlines : ∀ line ∈ Text.lines (Text.trim text.toList), line.getLast? ≠ some '\r' := by
    rw [← map_toList_linesOfText, List.forall_mem_map]
    exact h
  have hjoined : ("\n".intercalate (linesOfText text)).toList =
      ['\n'].intercalate (Text.lines (Text.trim text.toList)) := by
    rw [String.toList_intercalate, map_toList_linesOfText]
    rfl
  rw [linesOfText, hjoined, Text.lines_trim_intercalate_lines_trim hlines, linesOfText]

/-- Line feeds with and without carriage returns before them give the same lines, and so every
reading of the lines is the same. The lines hold no line feed, there are none for a text of blanks
only, and otherwise they start and end with no blank. Put together again they are read as the same
lines, if none of them ends with a carriage return. -/
theorem linesOfText_ignores_returns (text : String) :
    ('\r' ∉ text.toList →
      linesOfText (String.ofList (Text.withReturns text.toList)) = linesOfText text ∧
      ∀ category metadata path,
        Fact.ofArtifact { ofText category (String.ofList (Text.withReturns text.toList)) with
          metadata := metadata, path := path } =
        Fact.ofArtifact { ofText category text with metadata := metadata, path := path }) ∧
    (∀ line ∈ linesOfText text, '\n' ∉ line.toList) ∧
    (linesOfText text = [] ↔ Text.Blanks text.toList) ∧
    (∀ line, (linesOfText text).head? = some line →
      ∃ c, line.toList.head? = some c ∧ Text.isBlank c = false) ∧
    (∀ line, (linesOfText text).getLast? = some line →
      ∃ c, line.toList.getLast? = some c ∧ Text.isBlank c = false) ∧
    ((∀ line ∈ linesOfText text, line.toList.getLast? ≠ some '\r') →
      linesOfText ("\n".intercalate (linesOfText text)) = linesOfText text) := by
  refine ⟨fun h => ⟨linesOfText_withReturns h, fun category metadata path => ?_⟩, ?_, ?_, ?_, ?_,
    linesOfText_intercalate⟩
  · rw [ofText, ofText, linesOfText_withReturns h]
  · intro line hline
    have hmem := List.mem_map_of_mem (f := String.toList) hline
    rw [map_toList_linesOfText] at hmem
    exact Text.unbroken_of_mem_lines hmem
  · rw [linesOfText, List.map_eq_nil_iff, Text.lines_trim_eq_nil_iff]
  · intro line hline
    have hhead : (Text.lines (Text.trim text.toList)).head? = some line.toList := by
      rw [← map_toList_linesOfText, List.head?_map, hline]
      rfl
    exact Text.head?_head?_lines_trim hhead
  · intro line hline
    have hlast : (Text.lines (Text.trim text.toList)).getLast? = some line.toList := by
      rw [← map_toList_linesOfText, List.getLast?_map, hline]
      rfl
    exact Text.getLast?_getLast?_lines_trim hlast

/-- An inventory with an empty line between its blocks and a line feed at the end. -/
def twoDevices : String := "Memory Device\n\tSize: 8 GB\n\nMemory Device\n"

/-- The empty line is neither lost nor doubled by carriage returns, nor when the lines are put
together again. -/
theorem empty_line_kept_with_returns :
    ('\r' ∉ twoDevices.toList ∧
      ∀ line ∈ linesOfText twoDevices, line.toList.getLast? ≠ some '\r') ∧
    linesOfText (String.ofList (Text.withReturns twoDevices.toList)) =
      ["Memory Device", "\tSize: 8 GB", "", "Memory Device"] ∧
    linesOfText ("\n".intercalate (linesOfText twoDevices)) =
      ["Memory Device", "\tSize: 8 GB", "", "Memory Device"] := by
  have hlines : linesOfText twoDevices = ["Memory Device", "\tSize: 8 GB", "", "Memory Device"] := by
    decide +kernel
  have hreturn : '\r' ∉ twoDevices.toList := by decide
  have hends : ∀ line ∈ linesOfText twoDevices, line.toList.getLast? ≠ some '\r' := by
    rw [hlines]
    decide
  rcases linesOfText_ignores_returns twoDevices with ⟨returned, -, -, -, -, joined⟩
  refine ⟨⟨hreturn, hends⟩, ?_, ?_⟩
  · rw [(returned hreturn).1, hlines]
  · rw [joined hends, hlines]

end Artifact

end HostSurvey
