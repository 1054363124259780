import HostSurvey.Text.Blank

/-!
# Cutting a text into pieces

A text is cut at every character of a class (`pieces`); the pieces between two such characters may
be empty. Fields are the non-empty pieces between blanks, and lines are the pieces between line
feeds, where a carriage return just before a line feed belongs to the break and an empty piece
after the last line feed is no line.
-/

namespace HostSurvey.Text

/-- The texts between the characters of a class, empty ones included. -/
def pieces (isBreak : Char → Bool) : List Char → List (List Char)
  | [] => [[]]
  | c :: cs =>
    if isBreak c then [] :: pieces isBreak cs
    else match pieces isBreak cs with
      | [] => [[c]]
      | piece :: rest => (c :: piece) :: rest

/-- The non-empty texts between blanks. -/
def fields (cs : List Char) : List (List Char) := (pieces isBlank cs).filter (· ≠ [])

/-- A line without the carriage return that belongs to its line break. -/
def dropReturn (line : List Char) : List Char :=
  if line.getLast? = some '\r' then line.dropLast else line

/-- The lines of a text. The last one has no line break, so a carriage return at its end stays. -/
def lines (cs : List Char) : List (List Char) :=
  let parts := pieces (· == '\n') cs
  let broken := parts.dropLast.map dropReturn
  match parts.getLast? with
  | some (c :: last) => broken ++ [c :: last]
  | _ => broken

/-- The first line of a text, which is empty when the text has none. -/
def firstLine (cs : List Char) : List Char := (lines cs).headD []

/-- The texts of a list with a separator between each two of them. -/
def joinWith (separator : List Char) : List (List Char) → List Char
  | [] => []
  | [piece] => piece
  | piece :: rest => piece ++ separator ++ joinWith separator rest

/-- What follows a leading text, if the text starts so. -/
def after? (lead : List Char) (cs : List Char) : Option (List Char) :=
  if lead.isPrefixOf cs then some (cs.drop lead.length) else none

/-- A text cut at its first character of a given kind, which is dropped. -/
def splitAtFirst? (mark : Char) (cs : List Char) : Option (List Char × List Char) :=
  match cs.dropWhile (· ≠ mark) with
  | [] => none
  | _ :: rest => some (cs.takeWhile (· ≠ mark), rest)

/-! ## Facts -/

theorem pieces_ne_nil (p : Char → Bool) (cs : List Char) : pieces p cs ≠ [] := by
  cases cs with
  | nil => simp [pieces]
  | cons c r =>
    rw [pieces]
    split
    · simp
    · split <;> simp

theorem pieces_of_forall_not (p : Char → Bool) {cs : List Char} (h : ∀ c ∈ cs, p c = false) :
    pieces p cs = [cs] := by
  induction cs with
  | nil => rfl
  | cons c r ih => simp [pieces, h c (by simp), ih fun d hd => h d (by simp [hd])]

theorem not_break_of_mem_pieces (p : Char → Bool) (cs : List Char) :
    ∀ piece ∈ pieces p cs, ∀ c ∈ piece, p c = false := by
  induction cs with
  | nil => simp [pieces]
  | cons c r ih =>
    rw [pieces]
    split
    · simpa using ih
    · next hc =>
      cases hr : pieces p r with
      | nil => exact absurd hr (pieces_ne_nil p r)
      | cons q qs =>
        rw [hr] at ih
        have hc' : p c = false := by simpa using hc
        intro piece hp d hd
        simp only [List.mem_cons] at hp
        rcases hp with rfl | hp
        · rcases List.mem_cons.1 hd with rfl | hd
          · exact hc'
          · exact ih q (by simp) d hd
        · exact ih piece (by simp [hp]) d hd

/-- A text is cut at the first mark: the part before it holds none. -/
theorem splitAtFirst?_eq_some_iff {mark : Char} {cs before after : List Char} :
    splitAtFirst? mark cs = some (before, after) ↔
      cs = before ++ mark :: after ∧ mark ∉ before := by
  apply Iff.intro
  · intro h
    rw [splitAtFirst?] at h
    split at h
    · simp at h
    · next d rest hdrop =>
      have hcut : cs.takeWhile (· ≠ mark) = before ∧ rest = after := by simpa using h
      rcases hcut with ⟨rfl, rfl⟩
      -- the first character that is not passed over is the mark
      have hd : d = mark := by
        have hhead := head?_dropWhile_not (· ≠ mark) cs d (by rw [hdrop]; rfl)
        simpa using hhead
      have hcs := List.takeWhile_append_dropWhile (p := (· ≠ mark)) (l := cs)
      rw [hdrop, hd] at hcs
      refine ⟨hcs.symm, fun hmem => ?_⟩
      have hpass := List.all_eq_true.1 (List.all_takeWhile (p := (· ≠ mark)) (l := cs)) mark hmem
      simp at hpass
  · intro h
    rcases h with ⟨rfl, hmem⟩
    have hpass : ∀ c ∈ before, decide (c ≠ mark) = true := by
      intro c hc
      have hne : c ≠ mark := fun heq => hmem (heq ▸ hc)
      simp [hne]
    rw [splitAtFirst?, List.dropWhile_append_of_pos hpass, List.takeWhile_append_of_pos hpass]
    simp

theorem not_blank_of_mem_fields {cs field : List Char} (h : field ∈ fields cs) :
    ∀ c ∈ field, isBlank c = false :=
  not_break_of_mem_pieces isBlank cs field (List.mem_filter.1 h).1

theorem ne_nil_of_mem_fields {cs field : List Char} (h : field ∈ fields cs) : field ≠ [] := by
  simpa using (List.mem_filter.1 h).2

end HostSurvey.Text
