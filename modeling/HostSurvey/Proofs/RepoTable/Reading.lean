import HostSurvey.Proofs.RepoTable.Rows
import HostSurvey.Proofs.Text.Cutting
import Mathlib.Data.List.Sort

/-!
# Reading a repository table

The lines around a table fall into four parts (`Layout`), a row names an id after its blanks and marks
(`Names`), and the ids of the rows are listed in their order (`Listing`). A table is read from lines
exactly when these three say what it holds, and they say it of one table only.
-/

namespace HostSurvey.RepoTable

open Text

/-! ## The parts of the lines -/

def IsHeaderLine (line : List Char) : Prop := "repo id".toList <+: (trim line).map Char.toLower

def IsFooterLine (line : List Char) : Prop := "repolist:".toList <+: trim line

theorem isHeader_eq_false_iff {line : List Char} : isHeader line = false ↔ ¬ IsHeaderLine line := by
  rw [← Bool.not_eq_true, isHeader, List.isPrefixOf_iff_prefix, IsHeaderLine]

theorem isFooter_eq_false_iff {line : List Char} : isFooter line = false ↔ ¬ IsFooterLine line := by
  rw [← Bool.not_eq_true, isFooter, List.isPrefixOf_iff_prefix, IsFooterLine]

/-- The parts of the lines that a table stands in. -/
structure Layout where
  before : List (List Char)
  header : List Char
  rows : List (List Char)
  after : List (List Char)

namespace Layout

def lines (layout : Layout) : List (List Char) :=
  layout.before ++ layout.header :: (layout.rows ++ layout.after)

/-- A table starts after the first header, and the first footer after that ends it. -/
structure Lawful (layout : Layout) : Prop where
  before : ∀ line ∈ layout.before, ¬ IsHeaderLine line
  header : IsHeaderLine layout.header
  rows : ∀ line ∈ layout.rows, ¬ IsFooterLine line
  after : ∀ line ∈ layout.after.head?, IsFooterLine line

end Layout

theorem rows_lines {layout : Layout} (h : layout.Lawful) : rows layout.lines = layout.rows := by
  have hbefore : ∀ line ∈ layout.before, (!isHeader line) = true := by
    intro line hmem
    rw [isHeader_eq_false_iff.2 (h.before line hmem), Bool.not_false]
  have hheader : isHeader layout.header = true := List.isPrefixOf_iff_prefix.2 h.header
  have hrows : ∀ line ∈ layout.rows, (!isFooter line) = true := by
    intro line hmem
    rw [isFooter_eq_false_iff.2 (h.rows line hmem), Bool.not_false]
  have hafter : ∀ line ∈ layout.after.head?, (!isFooter line) = false := by
    intro line hmem
    have hfooter : isFooter line = true := List.isPrefixOf_iff_prefix.2 (h.after line hmem)
    rw [hfooter, Bool.not_true]
  rw [rows, Layout.lines, dropWhile_run hbefore (by simpa using hheader), List.drop_one,
    List.tail_cons, takeWhile_run hrows hafter]

theorem exists_layout {lines : List (List Char)} (h : ∃ line ∈ lines, IsHeaderLine line) :
    ∃ layout : Layout, layout.Lawful ∧ layout.lines = lines := by
  have hlines := List.takeWhile_append_dropWhile (p := (!isHeader ·)) (l := lines)
  cases hdrop : lines.dropWhile (!isHeader ·) with
  | nil =>
    rcases h with ⟨line, hmem, hheader⟩
    have hpass := List.dropWhile_eq_nil_iff.1 hdrop line hmem
    exact absurd hheader (isHeader_eq_false_iff.1 (by simpa using hpass))
  | cons header rest =>
    rw [hdrop] at hlines
    refine ⟨⟨lines.takeWhile (!isHeader ·), header, rest.takeWhile (!isFooter ·),
      rest.dropWhile (!isFooter ·)⟩, ⟨?_, ?_, ?_, ?_⟩, ?_⟩
    · intro line hmem
      apply isHeader_eq_false_iff.1
      simpa using List.mem_takeWhile_imp hmem
    · have hstop := head?_dropWhile_not (!isHeader ·) lines header (by rw [hdrop]; rfl)
      rw [Bool.not_eq_false'] at hstop
      exact List.isPrefixOf_iff_prefix.1 hstop
    · intro line hmem
      apply isFooter_eq_false_iff.1
      simpa using List.mem_takeWhile_imp hmem
    · intro line hmem
      have hstop := head?_dropWhile_not (!isFooter ·) rest line hmem
      rw [Bool.not_eq_false'] at hstop
      exact List.isPrefixOf_iff_prefix.1 hstop
    · rw [Layout.lines, List.takeWhile_append_dropWhile, hlines]

theorem rows_eq_nil {lines : List (List Char)} (h : ∀ line ∈ lines, ¬ IsHeaderLine line) :
    rows lines = [] := by
  have hdrop : lines.dropWhile (!isHeader ·) = [] := by
    apply List.dropWhile_eq_nil_iff.2
    intro line hmem
    rw [isHeader_eq_false_iff.2 (h line hmem), Bool.not_false]
  rw [rows, hdrop, List.drop_nil, List.takeWhile_nil]

/-! ## The ids of the rows -/

/-- An id is not empty, holds no blanks and does not start with a mark. -/
structure IsId (id : List Char) : Prop where
  ne_nil : id ≠ []
  blankless : ∀ c ∈ id, isBlank c = false
  unmarked : ∀ c ∈ id.head?, c ≠ '!' ∧ c ≠ '*'

/-- A row names an id when nothing but blanks and then marks stand before it, and a blank or the end of
the row after it. -/
def Names (row id : List Char) : Prop :=
  ∃ gap marks further, row = gap ++ (marks ++ (id ++ further)) ∧ Blanks gap ∧
    (∀ c ∈ marks, c = '!' ∨ c = '*') ∧ IsId id ∧ ∀ c ∈ further.head?, isBlank c = true

/-- The ids that rows name, in order and with repetitions; rows that name none are left out. -/
inductive Listing : List (List Char) → List (List Char) → Prop
  | nil : Listing [] []
  | named {row id : List Char} {rows ids : List (List Char)} (h : Names row id)
      (rest : Listing rows ids) : Listing (row :: rows) (id :: ids)
  | unnamed {row : List Char} {rows ids : List (List Char)} (h : ∀ id, ¬ Names row id)
      (rest : Listing rows ids) : Listing (row :: rows) ids

theorem names_of_hasId {row id : List Char} (h : HasId row id) : Names row id := by
  rcases h with ⟨field, further, hfields, rfl, hne⟩
  have hfield : ∀ c ∈ field, isBlank c = false :=
    not_blank_of_mem_fields (by rw [hfields]; exact List.mem_cons_self)
  rcases exists_of_fields_eq_cons hfields with ⟨gap, after, hrow, hgap, hafter⟩
  refine ⟨gap, field.takeWhile fun c => c = '!' ∨ c = '*', after, ?_, hgap, ?_, ⟨hne, ?_, ?_⟩, hafter⟩
  · rw [← List.append_assoc (field.takeWhile _), List.takeWhile_append_dropWhile]
    exact hrow
  · intro c hc
    simpa using List.mem_takeWhile_imp hc
  · intro c hc
    exact hfield c ((List.dropWhile_suffix _).subset hc)
  · intro c hc
    have hhead := head?_dropWhile_not (fun c => decide (c = '!' ∨ c = '*')) field c hc
    simpa using hhead

theorem hasId_of_names {row id : List Char} (h : Names row id) : HasId row id := by
  rcases h with ⟨gap, marks, further, rfl, hgap, hmarks, hid, hfurther⟩
  have hne : marks ++ id ≠ [] := fun hnil => hid.ne_nil (List.append_eq_nil_iff.1 hnil).2
  have hword : ∀ c ∈ marks ++ id, isBlank c = false := by
    intro c hc
    rcases List.mem_append.1 hc with hc | hc
    · rcases hmarks c hc with rfl | rfl
      · decide
      · decide
    · exact hid.blankless c hc
  refine ⟨marks ++ id, fields further, ?_, ?_, hid.ne_nil⟩
  · rw [fields_blanks_append hgap, ← List.append_assoc, fields_word_append hne hword hfurther]
  · have hpass : ∀ c ∈ marks, decide (c = '!' ∨ c = '*') = true := by simpa using hmarks
    have hstop : ∀ c ∈ id.head?, decide (c = '!' ∨ c = '*') = false := by
      intro c hc
      simpa using hid.unmarked c hc
    rw [dropWhile_run hpass hstop]

theorem rowId?_eq_some_iff_names {row id : List Char} : rowId? row = some id ↔ Names row id := by
  rw [rowId?_eq_some_iff]
  exact ⟨names_of_hasId, hasId_of_names⟩

theorem listing_iff {rows ids : List (List Char)} : Listing rows ids ↔ rows.filterMap rowId? = ids := by
  apply Iff.intro
  · intro h
    induction h with
    | nil => rfl
    | named h _ ih => rw [List.filterMap_cons_some (rowId?_eq_some_iff_names.2 h), ih]
    | @unnamed row _ _ h _ ih =>
      have hnone : rowId? row = none := by
        apply Option.eq_none_iff_forall_not_mem.2
        intro id hid
        exact h id (rowId?_eq_some_iff_names.1 hid)
      rw [List.filterMap_cons_none hnone, ih]
  · intro h
    subst h
    induction rows with
    | nil => exact .nil
    | cons row rows ih =>
      cases hid : rowId? row with
      | none =>
        rw [List.filterMap_cons_none hid]
        apply Listing.unnamed _ ih
        intro id hnames
        rw [rowId?_eq_some_iff_names.2 hnames] at hid
        cases hid
      | some id =>
        rw [List.filterMap_cons_some hid]
        exact .named (rowId?_eq_some_iff_names.1 hid) ih

theorem Listing.isId {rows ids : List (List Char)} (h : Listing rows ids) : ∀ id ∈ ids, IsId id := by
  induction h with
  | nil => simp
  | named h _ ih =>
    rcases h with ⟨-, -, -, -, -, -, hid, -⟩
    exact List.forall_mem_cons.2 ⟨hid, ih⟩
  | unnamed _ _ ih => exact ih

/-! ## Tables -/

/-- An id belongs to one of the distribution's own repositories, whose name ends before the first
slash. -/
def OwnedAs (id name : List Char) : Prop :=
  "rhel-".toList <+: id ∧ '/' ∉ name ∧ (id = name ∨ ∃ further, id = name ++ '/' :: further)

theorem rhelRepo?_eq_some_iff_ownedAs {id name : List Char} :
    rhelRepo? id = some name ↔ OwnedAs id name := by
  rw [rhelRepo?_eq_some_iff, takeWhile_ne_eq_iff, OwnedAs]

/-- A table holds the ids, and beside them the names of the distribution's own repositories among them
in ascending order. -/
structure Holds (table : RepoTable) (ids : List (List Char)) : Prop where
  repos : table.repos = ids.map String.ofList
  ascending : table.rhelRepos.Pairwise (· < ·)
  mem_rhelRepos : ∀ repo, repo ∈ table.rhelRepos ↔ ∃ id ∈ ids, OwnedAs id repo.toList

/-- The table is what stands in the lines. -/
def Reads (lines : List String) (table : RepoTable) : Prop :=
  ∃ (layout : Layout) (ids : List (List Char)), layout.Lawful ∧
    layout.lines = lines.map String.toList ∧ Listing layout.rows ids ∧ ids ≠ [] ∧ table.Holds ids

theorem holds_ofIds (ids : List (List Char)) : (ofIds ids).Holds ids where
  repos := rfl
  ascending := List.pairwise_map.2 (Dict.ordered_ofList _)
  mem_rhelRepos := by
    intro repo
    show repo ∈ Dict.setOf _ ↔ _
    rw [Dict.mem_setOf, List.mem_map]
    simp only [List.mem_filterMap, rhelRepo?_eq_some_iff_ownedAs]
    apply Iff.intro
    · intro h
      rcases h with ⟨_, ⟨id, hmem, howned⟩, rfl⟩
      exact ⟨id, hmem, by rwa [String.toList_ofList]⟩
    · intro h
      rcases h with ⟨id, hmem, howned⟩
      exact ⟨repo.toList, ⟨id, hmem, howned⟩, String.ofList_toList⟩

theorem Holds.unique {table other : RepoTable} {ids : List (List Char)} (h : table.Holds ids)
    (h' : other.Holds ids) : table = other := by
  have hrepos : table.repos = other.repos := h.repos.trans h'.repos.symm
  have hrhel : table.rhelRepos = other.rhelRepos := by
    apply h.ascending.eq_of_mem_iff h'.ascending
    intro repo
    rw [h.mem_rhelRepos, h'.mem_rhelRepos]
  cases table
  cases other
  cases hrepos
  cases hrhel
  rfl

variable {lines : List String} {table : RepoTable}

theorem ofLines?_of_layout {layout : Layout} {ids : List (List Char)} (h : layout.Lawful)
    (hlines : layout.lines = lines.map String.toList) (hids : Listing layout.rows ids) :
    ofLines? lines = if ids = [] then none else some (ofIds ids) := by
  rw [ofLines?, ← hlines, rows_lines h, listing_iff.1 hids]
  cases ids with
  | nil => rfl
  | cons id ids => rfl

theorem ofLines?_eq_none_of_headerless (h : ∀ line ∈ lines, ¬ IsHeaderLine line.toList) :
    ofLines? lines = none := by
  have hrows : rows (lines.map String.toList) = [] := rows_eq_nil (List.forall_mem_map.2 h)
  rw [ofLines?, hrows, List.filterMap_nil]

theorem headerless_or_exists_layout (lines : List String) :
    (∀ line ∈ lines, ¬ IsHeaderLine line.toList) ∨
      ∃ (layout : Layout) (ids : List (List Char)), layout.Lawful ∧
        layout.lines = lines.map String.toList ∧ Listing layout.rows ids := by
  by_cases h : ∃ line ∈ lines.map String.toList, IsHeaderLine line
  · rcases exists_layout h with ⟨layout, hlawful, hlines⟩
    exact .inr ⟨layout, _, hlawful, hlines, listing_iff.2 rfl⟩
  · refine .inl fun line hmem hheader => h ⟨line.toList, List.mem_map_of_mem hmem, hheader⟩

theorem ofLines?_eq_some_iff_reads : ofLines? lines = some table ↔ Reads lines table := by
  apply Iff.intro
  · intro h
    rcases headerless_or_exists_layout lines with hnone | ⟨layout, ids, hlawful, hlines, hids⟩
    · rw [ofLines?_eq_none_of_headerless hnone] at h
      cases h
    · rw [ofLines?_of_layout hlawful hlines hids] at h
      split at h
      · cases h
      · next hne =>
        cases h
        exact ⟨layout, ids, hlawful, hlines, hids, hne, holds_ofIds ids⟩
  · intro h
    rcases h with ⟨layout, ids, hlawful, hlines, hids, hne, hholds⟩
    rw [ofLines?_of_layout hlawful hlines hids, if_neg hne, hholds.unique (holds_ofIds ids)]

theorem ofLines?_eq_none_iff_unlisted :
    ofLines? lines = none ↔ (∀ line ∈ lines, ¬ IsHeaderLine line.toList) ∨
      ∃ layout : Layout, layout.Lawful ∧ layout.lines = lines.map String.toList ∧
        Listing layout.rows [] := by
  apply Iff.intro
  · intro h
    rcases headerless_or_exists_layout lines with hnone | ⟨layout, ids, hlawful, hlines, hids⟩
    · exact .inl hnone
    · rw [ofLines?_of_layout hlawful hlines hids] at h
      split at h
      · next hnil =>
        rw [hnil] at hids
        exact .inr ⟨layout, hlawful, hlines, hids⟩
      · cases h
  · intro h
    rcases h with hnone | ⟨layout, hlawful, hlines, hids⟩
    · exact ofLines?_eq_none_of_headerless hnone
    · rw [ofLines?_of_layout hlawful hlines hids, if_pos rfl]

/-- A table is read exactly as it stands between its header and its footer, and nothing is read when
there is no header or no row names an id. A repository is enabled when an id of the table is owned under
its name. -/
theorem ofLines?_reads_table (lines : List String) :
    (∀ table, ofLines? lines = some table ↔ Reads lines table) ∧
    (ofLines? lines = none ↔ (∀ line ∈ lines, ¬ IsHeaderLine line.toList) ∨
      ∃ layout : Layout, layout.Lawful ∧ layout.lines = lines.map String.toList ∧
        Listing layout.rows []) ∧
    ∀ table, ofLines? lines = some table →
      (∀ repo, table.isEnabled repo = true ↔ ∃ id ∈ table.repos, OwnedAs id.toList repo.toList) ∧
      (∀ repo ∈ table.rhelRepos, '/' ∉ repo.toList) ∧
      ∀ id ∈ table.repos, IsId id.toList := by
  refine ⟨fun table => ofLines?_eq_some_iff_reads, ofLines?_eq_none_iff_unlisted, ?_⟩
  intro table h
  rcases ofLines?_eq_some_iff_reads.1 h with ⟨layout, ids, -, -, hids, -, hholds⟩
  refine ⟨?_, ?_, ?_⟩
  · intro repo
    rw [isEnabled, List.contains_iff_mem, hholds.mem_rhelRepos, hholds.repos]
    simp only [List.mem_map, exists_exists_and_eq_and, String.toList_ofList]
  · intro repo hrepo
    rcases (hholds.mem_rhelRepos repo).1 hrepo with ⟨-, -, -, hslash, -⟩
    exact hslash
  · intro id hid
    rw [hholds.repos] at hid
    rcases List.mem_map.1 hid with ⟨chars, hmem, rfl⟩
    rw [String.toList_ofList]
    exact hids.isId chars hmem

/-- A header among the rows is a row, a row of marks is left out, and a footer before the header ends
nothing. -/
theorem header_again_is_row :
    ofLines? ["repolist: 0", " Repo ID ", "!!*  marks", "*rhel-8-base/8.4/x86_64  Base", "repo id",
        "*rhel-8-base/8.4/x86_64", "repolist: 3", "epel"] =
      some ⟨["rhel-8-base/8.4/x86_64", "repo", "rhel-8-base/8.4/x86_64"], ["rhel-8-base"]⟩ ∧
    ∃ id ∈ ["rhel-8-base/8.4/x86_64", "repo", "rhel-8-base/8.4/x86_64"],
      OwnedAs id.toList "rhel-8-base".toList := by
  have hread : ofLines? ["repolist: 0", " Repo ID ", "!!*  marks", "*rhel-8-base/8.4/x86_64  Base",
      "repo id", "*rhel-8-base/8.4/x86_64", "repolist: 3", "epel"] =
    some ⟨["rhel-8-base/8.4/x86_64", "repo", "rhel-8-base/8.4/x86_64"], ["rhel-8-base"]⟩ := by
    decide +kernel
  refine ⟨hread, ?_⟩
  exact (((ofLines?_reads_table _).2.2 _ hread).1 "rhel-8-base").1 (by decide +kernel)

end HostSurvey.RepoTable
