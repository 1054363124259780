import HostSurvey.Proofs.Text.Cutting
import Mathlib.Data.List.Infix

/-!
# Lines of texts

A line ends before a line feed, or before a carriage return and a line feed, and the first line of a
text is followed by the lines of the rest.
-/

namespace HostSurvey.Text

variable {cs line rest : List Char}

theorem lines_append_feed (h : '\n' ∉ line) (rest : List Char) :
    lines (line ++ '\n' :: rest) = dropReturn line :: lines rest := by
  have hne : pieces (· == '\n') rest ≠ [] := pieces_ne_nil _ rest
  unfold lines
  rw [pieces_append_mark h]
  dsimp only
  rw [List.dropLast_cons_of_ne_nil hne, List.map_cons, List.getLast?_cons_of_ne_nil hne]
  split
  · rfl
  · rfl

theorem lines_of_unbroken (h : '\n' ∉ cs) : lines cs = if cs = [] then [] else [cs] := by
  unfold lines
  rw [pieces_of_not_mem h]
  cases cs <;> rfl

/-- The first line of a text, which may be empty. -/
inductive FirstLine : List Char → List Char → Prop
  | unbroken {text : List Char} (h : '\n' ∉ text) : FirstLine text text
  | feed {line : List Char} (h : '\n' ∉ line) (noReturn : line.getLast? ≠ some '\r')
      (rest : List Char) : FirstLine (line ++ '\n' :: rest) line
  | returnFeed {line : List Char} (h : '\n' ∉ line) (rest : List Char) :
    FirstLine (line ++ '\r' :: '\n' :: rest) line

theorem FirstLine.not_mem (h : FirstLine cs line) : '\n' ∉ line := by
  cases h with
  | unbroken h => exact h
  | feed h => exact h
  | returnFeed h => exact h

theorem firstLine_iff : FirstLine cs line ↔ firstLine cs = line := by
  unfold firstLine
  apply Iff.intro
  · intro h
    cases h with
    | unbroken h =>
      rw [lines_of_unbroken h]
      cases cs <;> rfl
    | feed h noReturn rest =>
      rw [lines_append_feed h, dropReturn, if_neg noReturn]
      rfl
    | returnFeed h rest =>
      have hreturned : '\n' ∉ line ++ ['\r'] := by simp [h]
      rw [List.append_cons, lines_append_feed hreturned, dropReturn, if_pos (by simp)]
      exact List.dropLast_concat
  · intro h
    subst h
    by_cases hmem : '\n' ∈ cs
    · rcases List.eq_append_cons_of_mem hmem with ⟨broken, rest, rfl, hbroken⟩
      rw [lines_append_feed hbroken, List.headD_cons, dropReturn]
      split
      next hreturn =>
        rcases List.getLast?_eq_some_iff.1 hreturn with ⟨line, rfl⟩
        rw [List.dropLast_concat, List.append_assoc]
        exact .returnFeed (fun h => hbroken (List.mem_append_left _ h)) rest
      next hreturn => exact .feed hbroken hreturn rest
    · rw [lines_of_unbroken hmem]
      cases cs with
      | nil => exact .unbroken hmem
      | cons c cs => exact .unbroken hmem

/-! ## All lines -/

-- A text either has no line feed, or it is a line without one before what follows the feed.
theorem feed_induction {motive : List Char → Prop} (unbroken : ∀ cs, '\n' ∉ cs → motive cs)
    (feed : ∀ line rest, '\n' ∉ line → motive rest → motive (line ++ '\n' :: rest))
    (cs : List Char) : motive cs := by
  induction hlength : cs.length using Nat.strong_induction_on generalizing cs with
  | h length ih =>
    by_cases hmem : '\n' ∈ cs
    · rcases List.eq_append_cons_of_mem hmem with ⟨line, rest, rfl, hline⟩
      have hshorter : rest.length < length := by
        rw [← hlength, List.length_append, List.length_cons]
        omega
      exact feed line rest hline (ih rest.length hshorter rest rfl)
    · exact unbroken cs hmem

theorem dropReturn_eq_self (h : line.getLast? ≠ some '\r') : dropReturn line = line := by
  rw [dropReturn, if_neg h]

theorem dropReturn_concat (line : List Char) : dropReturn (line ++ ['\r']) = line := by
  rw [dropReturn, if_pos List.getLast?_concat, List.dropLast_concat]

theorem mem_of_mem_dropReturn {c : Char} (h : c ∈ dropReturn line) : c ∈ line := by
  unfold dropReturn at h
  split at h
  · exact List.mem_of_mem_dropLast h
  · exact h

theorem unbroken_of_mem_lines (h : line ∈ lines cs) : '\n' ∉ line := by
  induction cs using feed_induction with
  | unbroken cs hcs =>
    rw [lines_of_unbroken hcs] at h
    split at h
    · cases h
    · rw [List.mem_singleton.1 h]
      exact hcs
  | feed first rest hfirst ih =>
    rw [lines_append_feed hfirst] at h
    cases List.mem_cons.1 h with
    | inl heq =>
      rw [heq]
      exact fun hmem => hfirst (mem_of_mem_dropReturn hmem)
    | inr hmem => exact ih hmem

/-- Lines are read back from their text when none ends with a carriage return and the last one is
not empty. -/
theorem lines_intercalate {parts : List (List Char)} (unbroken : ∀ part ∈ parts, '\n' ∉ part)
    (unreturned : ∀ part ∈ parts, part.getLast? ≠ some '\r') (ended : parts.getLast? ≠ some []) :
    lines (['\n'].intercalate parts) = parts := by
  induction parts with
  | nil => rfl
  | cons part parts ih =>
    have hpart := unbroken part List.mem_cons_self
    cases parts with
    | nil =>
      have hne : part ≠ [] := fun hnil => ended (congrArg some hnil)
      rw [List.intercalate_singleton, lines_of_unbroken hpart, if_neg hne]
    | cons next rest =>
      rw [List.intercalate_cons_cons, List.append_assoc, List.singleton_append,
        lines_append_feed hpart, dropReturn_eq_self (unreturned part List.mem_cons_self)]
      rw [List.getLast?_cons_cons] at ended
      rw [ih (fun other hmem => unbroken other (List.mem_cons_of_mem part hmem))
        (fun other hmem => unreturned other (List.mem_cons_of_mem part hmem)) ended]

theorem lines_eq_nil_iff : lines cs = [] ↔ cs = [] := by
  induction cs using feed_induction with
  | unbroken cs hcs =>
    rw [lines_of_unbroken hcs]
    split
    · next hnil => exact iff_of_true rfl hnil
    · next hne => exact iff_of_false (List.cons_ne_nil cs []) hne
  | feed first rest hfirst _ =>
    rw [lines_append_feed hfirst]
    exact iff_of_false (List.cons_ne_nil _ _) (by simp)

theorem head?_dropReturn {c : Char} (hhead : line.head? = some c) (hreturn : c ≠ '\r') :
    (dropReturn line).head? = some c := by
  cases line with
  | nil => cases hhead
  | cons d line =>
    cases hhead
    cases line with
    | nil =>
      have hlast : [c].getLast? ≠ some '\r' := fun h => hreturn (Option.some.inj h)
      rw [dropReturn_eq_self hlast]
      rfl
    | cons e line =>
      unfold dropReturn
      split <;> rfl

/-- The first line starts as the text does, unless the text starts with a line break. -/
theorem head?_head?_lines {c : Char} (hhead : cs.head? = some c) (hfeed : c ≠ '\n')
    (hreturn : c ≠ '\r') (h : (lines cs).head? = some line) : line.head? = some c := by
  induction cs using feed_induction with
  | unbroken cs hcs =>
    have hne : cs ≠ [] := by
      intro hnil
      rw [hnil] at hhead
      cases hhead
    rw [lines_of_unbroken hcs, if_neg hne] at h
    cases h
    exact hhead
  | feed first rest hfirst _ =>
    rw [lines_append_feed hfirst] at h
    cases h
    apply head?_dropReturn _ hreturn
    cases first with
    | nil =>
      cases hhead
      exact absurd rfl hfeed
    | cons d first => exact hhead

/-- The last line ends as the text does, unless the text ends with a line feed. -/
theorem getLast?_getLast?_lines {c : Char} (hlast : cs.getLast? = some c) (hfeed : c ≠ '\n')
    (h : (lines cs).getLast? = some line) : line.getLast? = some c := by
  induction cs using feed_induction with
  | unbroken cs hcs =>
    have hne : cs ≠ [] := by
      intro hnil
      rw [hnil] at hlast
      cases hlast
    rw [lines_of_unbroken hcs, if_neg hne] at h
    cases h
    exact hlast
  | feed first rest hfirst ih =>
    have hrest : rest ≠ [] := by
      intro hnil
      rw [hnil, List.getLast?_concat] at hlast
      exact hfeed (Option.some.inj hlast).symm
    rw [lines_append_feed hfirst, List.getLast?_cons_of_ne_nil (mt lines_eq_nil_iff.1 hrest)] at h
    rw [List.getLast?_append_cons, List.getLast?_cons_of_ne_nil hrest] at hlast
    exact ih hlast h

end HostSurvey.Text
