import HostSurvey.Proofs.ReleaseStatement.Grammar

/-!
# The first readable line

A line is readable when it states a release whose version starts with a number (`IsReadable`). What is
read is the statement on the first such line (`Reads`); lines before it are passed over, and so is what
makes no sense on the line itself, such as a minor version that is no number.
-/

namespace HostSurvey.ReleaseStatement

open Text

/-- The parts of a line: the product, the groups of the version, and what follows them. -/
structure Parts where
  product : List Char
  groups : List (List Char)
  further : List Char

/-- The parts are those of the shortest product and of the longest version after it. -/
def Parts.Of (parts : Parts) (text : List Char) : Prop :=
  ∃ stated, StatesFirst text parts.product stated ∧ Version stated parts.groups parts.further

def IsReadable (line : List Char) : Prop :=
  ∃ parts : Parts, parts.Of (trim line) ∧
    ∃ group ∈ parts.groups.head?, ∃ n, Spells wordLimit group n

/-- The statement is what the parts of a line say. -/
structure Reads (line : List Char) (parts : Parts) (statement : ReleaseStatement) : Prop where
  of : parts.Of (trim line)
  product : statement.product = String.ofList parts.product
  version : statement.version = String.ofList (['.'].intercalate parts.groups)
  major : ∃ group ∈ parts.groups.head?, Spells wordLimit group statement.major
  minor : ∀ n, statement.minor = some n ↔ ∃ group ∈ parts.groups[1]?, Spells wordLimit group n
  codeName : ∀ name, statement.codeName = some name ↔ HasCodeName parts.further name.toList

variable {line text : List Char} {parts : Parts}

/-- The number that a group spells, if it spells one below the limit. -/
def number? (group : List Char) : Option Nat := (readNumeral wordLimit group).toOption

theorem StatesFirst.exists_digit {product stated : List Char} (h : StatesFirst text product stated) :
    ∃ digit ∈ stated.head?, isDecimalDigit digit = true := by
  rcases h with ⟨⟨following, -, -, -, gap, gap', -, -, -, -, -, hdigit⟩, -⟩
  exact hdigit

theorem Parts.Of.dotted (h : parts.Of text) : Dotted parts.groups := by
  rcases h with ⟨stated, -, hversion⟩
  exact hversion.dotted

theorem Parts.Of.number?_eq_some_iff (h : parts.Of text) {group : List Char} (hmem : group ∈ parts.groups)
    {n : Nat} : number? group = some n ↔ Spells wordLimit group n := by
  apply toOption_readNumeral_eq_some_iff (by decide)
  intro hsign
  exact absurd ((h.dotted.group group hmem).2 '+' hsign) (by decide)

/-- The parts that are found after a product. -/
def Parts.after (product stated : List Char) : Parts :=
  ⟨product, pieces (· == '.') (versionOf stated), stated.drop (versionOf stated).length⟩

theorem Parts.of_iff : parts.Of text ↔
    ∃ product stated, splitProduct? text = some (product, stated) ∧ parts = .after product stated := by
  apply Iff.intro
  · intro h
    rcases h with ⟨stated, hfirst, hversion⟩
    rcases (version_iff hfirst.exists_digit).1 hversion with ⟨hgroups, hfurther⟩
    refine ⟨parts.product, stated, splitProduct?_eq_some_iff.2 hfirst, ?_⟩
    rw [Parts.after, ← hgroups, ← hfurther]
  · intro h
    rcases h with ⟨product, stated, hsplit, rfl⟩
    have hfirst := splitProduct?_eq_some_iff.1 hsplit
    exact ⟨stated, hfirst, (version_iff hfirst.exists_digit).2 ⟨rfl, rfl⟩⟩

/-- What the parts of a line say when the version starts with a number. -/
def Parts.statement (parts : Parts) (major : Nat) : ReleaseStatement where
  product := String.ofList parts.product
  version := String.ofList (['.'].intercalate parts.groups)
  major
  minor := parts.groups[1]?.bind number?
  codeName := (codeName? parts.further).map String.ofList

theorem line?_of_parts (h : parts.Of (trim line)) :
    line? line = (parts.groups.head?.bind number?).map parts.statement := by
  rcases Parts.of_iff.1 h with ⟨product, stated, hsplit, rfl⟩
  have hjoin : ['.'].intercalate (pieces (· == '.') (versionOf stated)) = versionOf stated :=
    intercalate_pieces '.' (versionOf stated)
  have hnumber : ∀ group? : Option (List Char),
      (group?.map fun group => (readNumeral wordLimit group).toOption).join = group?.bind number? := by
    intro group?
    cases group? <;> rfl
  unfold Parts.statement Parts.after
  rw [line?, hsplit]
  simp only [hjoin, hnumber, List.head?_map, List.getElem?_map, Option.bind_some, bind]
  cases (pieces (· == '.') (versionOf stated)).head?.bind number? with
  | none => rfl
  | some major => rfl

theorem line?_eq_none_of_partless (h : ∀ parts : Parts, ¬ parts.Of (trim line)) : line? line = none := by
  cases hsplit : splitProduct? (trim line) with
  | none =>
    rw [line?, hsplit]
    rfl
  | some found => exact absurd (Parts.of_iff.2 ⟨_, _, hsplit, rfl⟩) (h (.after found.1 found.2))

theorem reads_statement (h : parts.Of (trim line)) {major : Nat}
    (hmajor : parts.groups.head?.bind number? = some major) :
    Reads line parts (parts.statement major) where
  of := h
  product := rfl
  version := rfl
  major := by
    rcases Option.bind_eq_some_iff.1 hmajor with ⟨group, hmem, hnumber⟩
    exact ⟨group, hmem, (h.number?_eq_some_iff (List.mem_of_mem_head? hmem)).1 hnumber⟩
  minor := by
    intro n
    show parts.groups[1]?.bind number? = some n ↔ _
    rw [Option.bind_eq_some_iff]
    apply Iff.intro
    · intro h
      rcases h with ⟨group, hmem, hnumber⟩
      exact ⟨group, hmem, (h.number?_eq_some_iff (List.mem_of_getElem? hmem)).1 hnumber⟩
    · intro h
      rcases h with ⟨group, hmem, hspells⟩
      exact ⟨group, hmem, (h.number?_eq_some_iff (List.mem_of_getElem? hmem)).2 hspells⟩
  codeName := by
    intro name
    show (codeName? parts.further).map String.ofList = some name ↔ _
    rw [Option.map_eq_some_iff, ← codeName?_eq_some_iff]
    apply Iff.intro
    · intro h
      rcases h with ⟨chars, hchars, rfl⟩
      rwa [String.toList_ofList]
    · intro hname
      exact ⟨name.toList, hname, String.ofList_toList⟩

theorem Reads.unique {statement other : ReleaseStatement} (h : Reads line parts statement)
    (h' : Reads line parts other) : statement = other := by
  have hproduct := h.product.trans h'.product.symm
  have hversion := h.version.trans h'.version.symm
  have hminor : statement.minor = other.minor := by
    apply Option.ext
    intro n
    exact (h.minor n).trans (h'.minor n).symm
  have hcodeName : statement.codeName = other.codeName := by
    apply Option.ext
    intro name
    exact (h.codeName name).trans (h'.codeName name).symm
  have hmajor : statement.major = other.major := by
    rcases h.major with ⟨group, hgroup, hspells⟩
    rcases h'.major with ⟨group', hgroup', hspells'⟩
    cases Option.mem_unique hgroup hgroup'
    exact hspells.unique hspells'
  cases statement
  cases other
  cases hproduct
  cases hversion
  cases hmajor
  cases hminor
  cases hcodeName
  rfl

theorem line?_of_reads {statement : ReleaseStatement} (h : Reads line parts statement) :
    line? line = some statement := by
  have hmajor : parts.groups.head?.bind number? = some statement.major := by
    rcases h.major with ⟨group, hmem, hspells⟩
    rw [Option.mem_def.1 hmem]
    exact (h.of.number?_eq_some_iff (List.mem_of_mem_head? hmem)).2 hspells
  rw [line?_of_parts h.of, hmajor, h.unique (reads_statement h.of hmajor)]
  rfl

theorem line?_eq_some_iff {statement : ReleaseStatement} :
    line? line = some statement ↔ ∃ parts, Reads line parts statement := by
  apply Iff.intro
  · intro h
    by_cases hparts : ∃ parts : Parts, parts.Of (trim line)
    · rcases hparts with ⟨parts, hof⟩
      rw [line?_of_parts hof] at h
      rcases Option.map_eq_some_iff.1 h with ⟨major, hmajor, rfl⟩
      exact ⟨parts, reads_statement hof hmajor⟩
    · rw [line?_eq_none_of_partless fun parts hof => hparts ⟨parts, hof⟩] at h
      cases h
  · intro h
    rcases h with ⟨parts, h⟩
    exact line?_of_reads h

theorem line?_eq_none_iff : line? line = none ↔ ¬ IsReadable line := by
  rw [Option.eq_none_iff_forall_ne_some]
  apply Iff.intro
  · intro unread readable
    rcases readable with ⟨parts, hof, group, hmem, n, hspells⟩
    have hnumber := (hof.number?_eq_some_iff (List.mem_of_mem_head? hmem)).2 hspells
    apply unread (parts.statement n)
    rw [line?_of_parts hof, Option.mem_def.1 hmem, Option.bind_some, hnumber]
    rfl
  · intro h statement hread
    rcases line?_eq_some_iff.1 hread with ⟨parts, hreads⟩
    rcases hreads.major with ⟨group, hmem, hspells⟩
    exact h ⟨parts, hreads.of, group, hmem, statement.major, hspells⟩

/-! ## Products -/

theorem StatesFirst.head?_product {product stated : List Char}
    (h : StatesFirst (trim line) product stated) : ∀ c ∈ product.head?, isBlank c = false := by
  rcases h with ⟨⟨following, htext, hne, -⟩, -⟩
  intro c hc
  apply head?_trim line c
  rw [htext, List.head?_append_of_ne_nil _ hne]
  exact hc

-- A blank at the end of the product could stand before the word instead.
theorem StatesFirst.getLast?_product {product stated : List Char}
    (h : StatesFirst (trim line) product stated) : ∀ c ∈ product.getLast?, isBlank c = false := by
  intro c hc
  have hhead := h.head?_product
  rcases h with ⟨⟨following, htext, -, hline, gap, gap', rfl, -, hgap, hrest⟩, hshortest⟩
  rcases List.getLast?_eq_some_iff.1 hc with ⟨shorter, rfl⟩
  by_contra hblank
  rw [Bool.not_eq_false] at hblank
  have hne : shorter ≠ [] := by
    intro h
    subst h
    rw [hhead c rfl] at hblank
    cases hblank
  have hgrown : Blanks (c :: gap) := List.forall_mem_cons.2 ⟨hblank, hgap⟩
  have hstates : States (trim line) shorter stated := by
    refine ⟨c :: (gap ++ ("release".toList ++ (gap' ++ stated))), ?_, hne,
      fun hmem => hline (List.mem_append_left _ hmem), c :: gap, gap', rfl,
      List.cons_ne_nil c gap, hgrown, hrest⟩
    rw [htext, List.append_assoc, List.singleton_append]
  have hlength := hshortest shorter stated hstates
  rw [List.length_append, List.length_singleton] at hlength
  omega

theorem StatesFirst.not_states_product {product stated : List Char}
    (h : StatesFirst text product stated) (product' stated' : List Char) :
    ¬ States product product' stated' := by
  intro h
  rcases h with ⟨following, rfl, hne, hline, hfollows⟩
  rcases h with ⟨⟨rest, rfl, -⟩, hshortest⟩
  have hlength := hshortest product' (stated' ++ rest)
    ⟨following ++ rest, List.append_assoc _ _ _, hne, hline, hfollows.append rest⟩
  have hpos := List.length_pos_iff.2 hfollows.ne_nil
  rw [List.length_append] at hlength
  omega

/-! ## Lines -/

/-- The release of a host is what the first readable line states, and without such a line there is
none. Its product has no blanks at its ends and holds no other statement. -/
theorem ofLines?_reads_first_readable (lines : List String) :
    (∀ statement, ofLines? lines = some statement ↔
      ∃ before line after parts, lines = before ++ line :: after ∧
        (∀ other ∈ before, ¬ IsReadable other.toList) ∧ Reads line.toList parts statement) ∧
    (ofLines? lines = none ↔ ∀ line ∈ lines, ¬ IsReadable line.toList) ∧
    ∀ line parts statement, Reads line parts statement →
      (∀ c ∈ statement.product.toList.head?, isBlank c = false) ∧
      (∀ c ∈ statement.product.toList.getLast?, isBlank c = false) ∧
      ∀ product stated, ¬ States statement.product.toList product stated := by
  refine ⟨?_, ?_, ?_⟩
  · intro statement
    rw [ofLines?, List.findSome?_eq_some_iff]
    simp only [line?_eq_some_iff, line?_eq_none_iff]
    apply Iff.intro
    · intro h
      rcases h with ⟨before, line, after, hlines, ⟨parts, hreads⟩, hbefore⟩
      exact ⟨before, line, after, parts, hlines, hbefore, hreads⟩
    · intro h
      rcases h with ⟨before, line, after, parts, hlines, hbefore, hreads⟩
      exact ⟨before, line, after, hlines, ⟨parts, hreads⟩, hbefore⟩
  · rw [ofLines?, List.findSome?_eq_none_iff]
    simp only [line?_eq_none_iff]
  · intro line parts statement h
    rcases h.of with ⟨stated, hfirst, -⟩
    rw [h.product, String.toList_ofList]
    exact ⟨hfirst.head?_product, hfirst.getLast?_product, hfirst.not_states_product⟩

/-- A version that is too large for a number makes its line unreadable, and a product may have the word
of the statement in it. -/
theorem oversized_version_passed_over :
    ofLines? ["Linux release 4294967296 (Big)", " My release of Linux \t release 8.4.x86 (Ootpa) 1",
        "CentOS release 7"] =
      some ⟨"My release of Linux", "8.4", 8, some 4, some "Ootpa"⟩ ∧
    ¬ IsReadable "Linux release 4294967296 (Big)".toList ∧
    ∀ product stated, ¬ States "My release of Linux".toList product stated := by
  have hread : ofLines? ["Linux release 4294967296 (Big)",
      " My release of Linux \t release 8.4.x86 (Ootpa) 1", "CentOS release 7"] =
    some ⟨"My release of Linux", "8.4", 8, some 4, some "Ootpa"⟩ := by
    decide +kernel
  have hnone : ofLines? ["Linux release 4294967296 (Big)"] = none := by decide +kernel
  rcases ofLines?_reads_first_readable
    ["Linux release 4294967296 (Big)", " My release of Linux \t release 8.4.x86 (Ootpa) 1",
      "CentOS release 7"] with ⟨hstatement, -, hproduct⟩
  rcases (hstatement _).1 hread with ⟨_, line, _, parts, -, -, hreads⟩
  refine ⟨hread, ?_, (hproduct line.toList parts _ hreads).2.2⟩
  exact (ofLines?_reads_first_readable ["Linux release 4294967296 (Big)"]).2.1.1 hnone _
    List.mem_cons_self

end HostSurvey.ReleaseStatement
