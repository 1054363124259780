import HostSurvey.Reading.RepoTable
import Mathlib.Data.List.TakeWhile

/-!
# What a repository table lists

A table lists the ids of its usable rows, which are the lines after the first header and before the
footer that hold an id beside its marks. One of the distribution's own repositories is enabled when
the table lists an id that is its name up to the first slash.
-/

namespace HostSurvey.RepoTable

open Text

/-- A row comes after the first header, and there is no footer on the way from there to it. -/
def IsRow (lines : List (List Char)) (row : List Char) : Prop :=
  ∃ before header between after, lines = before ++ header :: (between ++ row :: after) ∧
    isHeader header = true ∧ (∀ line ∈ before, isHeader line = false) ∧
    ∀ line ∈ between ++ [row], isFooter line = false

/-- A row is usable when its first field has more than marks; what follows them is the id. -/
def HasId (row id : List Char) : Prop :=
  ∃ field further, fields row = field :: further ∧
    id = field.dropWhile (fun c => c = '!' ∨ c = '*') ∧ id ≠ []

/-- Some usable row of the table among the lines has the id. -/
def Lists (lines : List String) (id : List Char) : Prop :=
  ∃ row, IsRow (lines.map String.toList) row ∧ HasId row id

/-- Some id of the table among the lines is a repository's name up to the first slash. -/
def Enables (lines : List String) (repo : String) : Prop :=
  ∃ id, Lists lines id ∧ id.takeWhile (· ≠ '/') = repo.toList

theorem mem_rows_iff {lines : List (List Char)} {row : List Char} :
    row ∈ rows lines ↔ IsRow lines row := by
  unfold rows
  apply Iff.intro
  · intro h
    have hlines := List.takeWhile_append_dropWhile (p := (!isHeader ·)) (l := lines)
    cases hdrop : lines.dropWhile (!isHeader ·) with
    | nil => rw [hdrop] at h; simp at h
    | cons header rest =>
      rw [hdrop, List.drop_one, List.tail_cons] at h
      rcases List.append_of_mem h with ⟨between, further, hrows⟩
      have hrest := List.takeWhile_append_dropWhile (p := (!isFooter ·)) (l := rest)
      rw [hrows, List.append_assoc, List.cons_append] at hrest
      refine ⟨lines.takeWhile (!isHeader ·), header, between,
        further ++ rest.dropWhile (!isFooter ·), ?_, ?_, ?_, ?_⟩
      · rw [hrest, ← hdrop, hlines]
      · have hhead := List.head_dropWhile_not (p := (!isHeader ·)) (l := lines)
          (by rw [hdrop]; exact List.cons_ne_nil _ _)
        simpa [hdrop] using hhead
      · intro line hmem
        simpa using List.mem_takeWhile_imp hmem
      · intro line hmem
        have hmem' : line ∈ rest.takeWhile (!isFooter ·) := by
          rw [hrows]
          rcases List.mem_append.1 hmem with hmem | hmem
          · exact List.mem_append_left _ hmem
          · rw [List.mem_singleton.1 hmem]
            exact List.mem_append_right _ List.mem_cons_self
        simpa using List.mem_takeWhile_imp hmem'
  · intro h
    rcases h with ⟨before, header, between, after, rfl, hheader, hbefore, hbetween⟩
    have hpass : ∀ line ∈ before, (!isHeader line) = true := by simpa using hbefore
    have hrow : (!isFooter row) = true := by simpa using hbetween row (by simp)
    have hkeep : ∀ line ∈ between, (!isFooter line) = true := by
      intro line hmem
      simpa using hbetween line (List.mem_append_left _ hmem)
    rw [List.dropWhile_append_of_pos hpass,
      List.dropWhile_cons_of_neg (p := (!isHeader ·)) (by simpa using hheader), List.drop_one,
      List.tail_cons, List.takeWhile_append_of_pos hkeep,
      List.takeWhile_cons_of_pos (p := (!isFooter ·)) hrow]
    exact List.mem_append_right _ List.mem_cons_self

theorem rowId?_eq_some_iff {row id : List Char} : rowId? row = some id ↔ HasId row id := by
  unfold rowId? HasId
  cases hfields : fields row with
  | nil => simp
  | cons field further =>
    simp only
    apply Iff.intro
    · intro h
      split at h
      · cases h
      · next hne =>
        cases h
        exact ⟨field, further, rfl, by simp, hne⟩
    · intro h
      rcases h with ⟨_, _, heq, rfl, hne⟩
      cases heq
      rw [if_neg (by simpa using hne)]
      simp

theorem mem_ids_iff {lines : List String} {id : List Char} :
    id ∈ (rows (lines.map String.toList)).filterMap rowId? ↔ Lists lines id := by
  rw [List.mem_filterMap]
  simp only [mem_rows_iff, rowId?_eq_some_iff]
  rfl

theorem ofLines?_eq_some_iff {lines : List String} {table : RepoTable} :
    ofLines? lines = some table ↔
      (∃ id, Lists lines id) ∧
        table = ofIds ((rows (lines.map String.toList)).filterMap rowId?) := by
  simp only [← mem_ids_iff, ofLines?]
  cases (rows (lines.map String.toList)).filterMap rowId? with
  | nil => simp
  | cons id ids =>
    apply Iff.intro
    · intro h
      cases h
      exact ⟨⟨id, List.mem_cons_self⟩, rfl⟩
    · intro h
      rcases h with ⟨-, rfl⟩
      rfl

theorem rhelRepo?_eq_some_iff {id repo : List Char} :
    rhelRepo? id = some repo ↔ "rhel-".toList <+: id ∧ id.takeWhile (· ≠ '/') = repo := by
  rw [rhelRepo?, ← List.isPrefixOf_iff_prefix]
  by_cases hlead : "rhel-".toList.isPrefixOf id = true
  · rw [if_pos hlead, Option.some.injEq, and_iff_right hlead]
  · rw [if_neg hlead]
    apply Iff.intro
    · intro h
      cases h
    · intro h
      rcases h with ⟨hown, -⟩
      exact absurd hown hlead

theorem isEnabled_ofIds_iff {ids : List (List Char)} {repo : String} :
    (ofIds ids).isEnabled repo = true ↔
      ∃ id ∈ ids, "rhel-".toList <+: id ∧ id.takeWhile (· ≠ '/') = repo.toList := by
  rw [isEnabled, List.contains_iff_mem]
  show repo ∈ Dict.setOf _ ↔ _
  rw [Dict.mem_setOf, List.mem_map]
  simp only [List.mem_filterMap, rhelRepo?_eq_some_iff]
  apply Iff.intro
  · intro h
    rcases h with ⟨_, ⟨id, hmem, hlead, rfl⟩, rfl⟩
    exact ⟨id, hmem, hlead, String.toList_ofList.symm⟩
  · intro h
    rcases h with ⟨id, hmem, hlead, hrepo⟩
    exact ⟨_, ⟨id, hmem, hlead, rfl⟩, by rw [hrepo, String.ofList_toList]⟩

-- The name of one of the distribution's own repositories says that the id is one of theirs.
theorem isEnabled_iff {lines : List String} {table : RepoTable} {repo : String}
    (h : ofLines? lines = some table) (own : "rhel-".toList <+: repo.toList) :
    table.isEnabled repo = true ↔ Enables lines repo := by
  rcases ofLines?_eq_some_iff.1 h with ⟨-, rfl⟩
  rw [isEnabled_ofIds_iff, Enables]
  simp only [mem_ids_iff]
  apply Iff.intro
  · intro h
    rcases h with ⟨id, hlists, -, hrepo⟩
    exact ⟨id, hlists, hrepo⟩
  · intro h
    rcases h with ⟨id, hlists, hrepo⟩
    refine ⟨id, hlists, ?_, hrepo⟩
    rw [← hrepo] at own
    exact own.trans (List.takeWhile_prefix _)

end HostSurvey.RepoTable
