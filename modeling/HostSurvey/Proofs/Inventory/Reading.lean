import HostSurvey.Proofs.Inventory.Blocks
import Mathlib.Tactic.ByContra

/-!
# Reading an inventory in one pass

The pass over the lines of an inventory keeps an open section, the indentation of its keys and its
last key. It comes to the blocks of the lines: a section is the table of its block, no section is
lost, and none is merged with another.
-/

namespace HostSurvey.Inventory

open Text

variable {keyIndent : Nat} {body rest after : List (List Char)} {line : List Char}
  {key text value : String}

/-! ## Reading a block -/

theorem continueValue_ne_empty {value more : String} (h : more ≠ "") :
    continueValue value more ≠ "" := by
  rw [continueValue]
  split
  · exact h
  · simp [h]

theorem intercalate_append_cons (separator a b : String) (more : List String) :
    separator.intercalate ((a ++ b) :: more) = a ++ separator.intercalate (b :: more) := by
  cases more with
  | nil => simp
  | cons c more =>
    rw [String.intercalate_cons_cons, String.intercalate_cons_cons]
    simp [String.append_assoc]

theorem valueOf_cons {text line : String} (h : line ≠ "") (more : List String) :
    valueOf text (line :: more) = valueOf (continueValue text line) more := by
  rw [valueOf, valueOf, if_neg (continueValue_ne_empty h), continueValue]
  by_cases htext : text = ""
  · rw [if_pos htext, if_pos htext]
  · rw [if_neg htext, if_neg htext, intercalate_append_cons, String.intercalate_cons_cons]

/-- The values of an open section when a line continues the last entry. -/
def continueLast (lastKey : Option String) (values : InventorySection) (more : String) :
    InventorySection :=
  match lastKey with
  | none => values
  | some key =>
    match Dict.get? values key with
    | none => values
    | some value => Dict.insert key (continueValue value more) values

theorem foldl_continueLast_insert (key text : String) (values : InventorySection)
    {more : List String} (h : ∀ line ∈ more, line ≠ "") :
    more.foldl (continueLast (some key)) (Dict.insert key text values) =
      Dict.insert key (valueOf text more) values := by
  induction more generalizing text with
  | nil =>
    by_cases htext : text = ""
    · simp [valueOf, htext]
    · simp [valueOf, htext]
  | cons line more ih =>
    have hstep : continueLast (some key) (Dict.insert key text values) line =
        Dict.insert key (continueValue text line) values := by
      simp only [continueLast, Dict.get?_insert, if_true, Dict.insert_insert]
    rw [List.foldl_cons, hstep, ih _ fun next hmem => h next (List.mem_cons_of_mem _ hmem),
      valueOf_cons (h line List.mem_cons_self)]

variable {title : String} {values : InventorySection} {lastKey : Option String} {indent : Nat}

theorem read_deeper {chars : List Char} (h : keyIndent < indent) :
    OpenSection.read ⟨title, values, some keyIndent, lastKey⟩ indent chars =
      ⟨title, continueLast lastKey values (String.ofList chars), some keyIndent, lastKey⟩ := by
  rw [OpenSection.read]
  simp only [Option.getD_some, if_pos h, continueLast]
  cases lastKey with
  | none => rfl
  | some key =>
    cases hvalue : Dict.get? values key with
    | none => simp [hvalue]
    | some value => simp [hvalue]

theorem read_shallow {chars : List Char} (h : ¬ keyIndent < indent) :
    OpenSection.read ⟨title, values, some keyIndent, lastKey⟩ indent chars =
      match entry? chars with
      | none => ⟨title, values, some keyIndent, lastKey⟩
      | some (key, value) =>
        ⟨title, Dict.insert key value values, some keyIndent, some key⟩ := by
  cases hentry : entry? chars with
  | none => simp [OpenSection.read, h, hentry]
  | some pair => simp [OpenSection.read, h, hentry]

/-- An open section after some more of its lines. -/
def readLines (open_ : OpenSection) (body : List (List Char)) : OpenSection :=
  body.foldl (fun open_ line => open_.read (indentation line) (trim line)) open_

theorem continuations_cons_of_entry (h : IsEntry keyIndent line) :
    continuations keyIndent (line :: rest) = [] := by
  simp [continuations, h]

theorem continuations_cons_of_deeper (h : keyIndent < indentation line) :
    continuations keyIndent (line :: rest) =
      String.ofList (trim line) :: continuations keyIndent rest := by
  have hnot : ¬ IsEntry keyIndent line := by
    intro hentry
    rcases hentry with ⟨key, text, henters⟩
    have := henters.shallow
    omega
  simp [continuations, hnot, h]

theorem continuations_cons_of_passed (h : ¬ keyIndent < indentation line)
    (hentry : ¬ IsEntry keyIndent line) :
    continuations keyIndent (line :: rest) = continuations keyIndent rest := by
  simp [continuations, hentry, h]

theorem ne_empty_of_mem_continuations (h : ∀ line ∈ body, trim line ≠ []) :
    ∀ more ∈ continuations keyIndent body, more ≠ "" := by
  intro more hmem
  rw [continuations, List.mem_map] at hmem
  rcases hmem with ⟨line, hline, rfl⟩
  have hbody := (List.takeWhile_sublist _).subset (List.mem_filter.1 hline).1
  simpa using h line hbody

-- The invariant: the values so far, with what continues the last entry, and then the entries of
-- the lines that are left.
theorem entries_readLines (h : ∀ line ∈ body, trim line ≠ []) :
    (readLines ⟨title, values, some keyIndent, lastKey⟩ body).entries =
      (entries keyIndent body).foldl (fun d (key, value) => Dict.insert key value d)
        ((continuations keyIndent body).foldl (continueLast lastKey) values) := by
  induction body generalizing values lastKey with
  | nil => rfl
  | cons line rest ih =>
    have hrest : ∀ line ∈ rest, trim line ≠ [] := fun l hl => h l (List.mem_cons_of_mem _ hl)
    rw [readLines, List.foldl_cons, ← readLines]
    by_cases hdeeper : keyIndent < indentation line
    · rw [read_deeper hdeeper, ih hrest, continuations_cons_of_deeper hdeeper, entries]
      have hentry : entryAt? keyIndent line = none := by rw [entryAt?, if_neg (by omega)]
      rw [hentry]
      rfl
    · rw [read_shallow hdeeper, entries, entryAt?, if_pos (by omega)]
      cases hentry : entry? (trim line) with
      | none =>
        have hnot : ¬ IsEntry keyIndent line := by
          rw [← isSome_entryAt?_iff, entryAt?, if_pos (by omega), hentry]
          simp
        simp only [ih hrest, continuations_cons_of_passed hdeeper hnot]
      | some entry =>
        have hsome : IsEntry keyIndent line := by
          rw [← isSome_entryAt?_iff, entryAt?, if_pos (by omega), hentry]
          rfl
        simp only [ih hrest, continuations_cons_of_entry hsome, List.foldl_cons, List.foldl_nil,
          foldl_continueLast_insert _ _ _ (ne_empty_of_mem_continuations hrest)]

theorem Block.table_eq_readLines {block : Block} (h : ∀ line ∈ block.body, trim line ≠ []) :
    (readLines { title := block.title } block.body).entries = block.table := by
  rw [Block.table, Block.keyIndent]
  cases hbody : block.body with
  | nil => rfl
  | cons line rest =>
    rw [hbody] at h
    -- the first line sets the key indentation, which may as well be set before it
    have hfirst : readLines { title := block.title } (line :: rest) =
        readLines ⟨block.title, [], some (indentation line), none⟩ (line :: rest) := rfl
    rw [hfirst, entries_readLines h]
    have hnone (more : List String) : more.foldl (continueLast none) [] = [] := by
      induction more with
      | nil => rfl
      | cons line more ih => exact ih
    rw [hnone]
    rfl

/-! ## Reading the lines -/

theorem isTitle_iff {body : List Char} :
    isTitle body = true ↔ ¬ "Handle ".toList <+: body ∧ ¬ ['#'] <+: body := by
  have hhandle : (after? "Handle ".toList body).isNone = true ↔ ¬ "Handle ".toList <+: body := by
    rw [← List.isPrefixOf_iff_prefix, after?]
    cases "Handle ".toList.isPrefixOf body <;> simp
  have hcomment : (body.head? != some '#') = true ↔ ¬ ['#'] <+: body := by
    cases body with
    | nil => simp
    | cons c rest =>
      have hhead : ['#'] <+: c :: rest ↔ c = '#' := by
        rw [List.cons_prefix_cons, eq_comm]
        simp
      rw [hhead]
      simp
  rw [isTitle, Bool.and_eq_true, hhandle, hcomment]

theorem not_isIndented_of_isTitleLine {line : List Char} (h : IsTitleLine line) :
    ¬ IsIndented line := fun hi => hi.2 h.2.1

theorem ne_nil_of_mem_blocks (lines : List (List Char)) {block : Block} (h : block ∈ blocks lines) :
    ∀ line ∈ block.body, trim line ≠ [] := by
  induction lines with
  | nil => simp [blocks] at h
  | cons line rest ih =>
    rw [blocks] at h
    split at h
    · rcases List.mem_cons.1 h with rfl | h
      · intro next hnext
        have hindented := List.all_eq_true.1 List.all_takeWhile next hnext
        exact (of_decide_eq_true hindented).1
      · exact ih h
    · exact ih h

/-- An inventory with one more block; a block without entries is dropped. -/
def addBlock (inventory : Inventory) (block : Block) : Inventory :=
  if block.table = [] then inventory else inventory.add block.title block.table

theorem read_indented {progress : Progress} {line : String} (h : IsIndented line.toList) :
    progress.read line = { progress with
      current := progress.current.map (·.read (indentation line.toList) (trim line.toList)) } := by
  rw [Progress.read]
  simp only [if_neg h.1, if_neg h.2]

theorem read_title {progress : Progress} {line : String} (h : IsTitleLine line.toList) :
    progress.read line =
      ⟨progress.close, some { title := String.ofList (canonicalKey (trim line.toList)) }⟩ := by
  rw [Progress.read]
  simp only [if_neg h.1, if_pos h.2.1, if_pos (isTitle_iff.2 h.2.2)]

theorem read_other {progress : Progress} {line : String} (hi : ¬ IsIndented line.toList)
    (ht : ¬ IsTitleLine line.toList) : progress.read line = ⟨progress.close, none⟩ := by
  rw [Progress.read]
  by_cases hblank : trim line.toList = []
  · simp only [if_pos hblank]
  · have hindent : indentation line.toList = 0 := by
      by_contra hne
      exact hi ⟨hblank, hne⟩
    have hnot : ¬ isTitle (trim line.toList) = true := by
      rw [isTitle_iff]
      exact fun h => ht ⟨hblank, hindent, h⟩
    simp only [if_neg hblank, if_pos hindent, if_neg hnot]

theorem title_read (open_ : OpenSection) (indent : Nat) (chars : List Char) :
    (open_.read indent chars).title = open_.title := by
  rw [OpenSection.read]
  dsimp only
  split
  · split
    · rfl
    · split <;> rfl
  · split <;> rfl

theorem title_readLines (open_ : OpenSection) (body : List (List Char)) :
    (readLines open_ body).title = open_.title := by
  induction body generalizing open_ with
  | nil => rfl
  | cons line rest ih => exact (ih _).trans (title_read open_ _ _)

-- A section that was open for a whole block is closed as that block.
theorem close_readLines {inventory : Inventory} {block : Block}
    (h : ∀ line ∈ block.body, trim line ≠ []) :
    (⟨inventory, some (readLines { title := block.title } block.body)⟩ : Progress).close =
      addBlock inventory block := by
  rw [Progress.close]
  simp only [Block.table_eq_readLines h, title_readLines, addBlock]

theorem close_map_readLines (progress : Progress) :
    ({ progress with current := progress.current.map (readLines · []) } : Progress).close =
      progress.close := by
  cases h : progress.current <;> simp [Progress.close, readLines, h]

-- What is left of the lines starts with more of the open section, and then come blocks.
theorem close_foldl_read (lines : List String) (progress : Progress) :
    (lines.foldl Progress.read progress).close =
      (blocks (lines.map String.toList)).foldl addBlock
        ({ progress with
          current := progress.current.map (readLines ·
            ((lines.map String.toList).takeWhile fun line => IsIndented line)) } : Progress).close := by
  induction lines generalizing progress with
  | nil => exact (close_map_readLines progress).symm
  | cons line rest ih =>
    rw [List.foldl_cons, ih, List.map_cons, blocks]
    by_cases hi : IsIndented line.toList
    · rw [if_neg fun ht => not_isIndented_of_isTitleLine ht hi, read_indented hi,
        List.takeWhile_cons_of_pos (by simpa using hi), Option.map_map]
      rfl
    · rw [List.takeWhile_cons_of_neg (by simpa using hi), close_map_readLines]
      by_cases ht : IsTitleLine line.toList
      · rw [if_pos ht, read_title ht, List.foldl_cons, ← close_readLines]
        · rfl
        · -- the block of this title has no blank lines
          refine ne_nil_of_mem_blocks (line.toList :: rest.map String.toList) ?_
          rw [blocks, if_pos ht]
          exact List.mem_cons_self
      · rw [if_neg ht, read_other hi ht]
        rfl

/-! ## The sections of an inventory -/

theorem get_add (inventory : Inventory) (title other : String) (values : InventorySection) :
    (inventory.add title values).get other =
      if title = other then inventory.get title ++ [values] else inventory.get other := by
  rw [get, add, Dict.get?_insert]
  by_cases h : title = other
  · simp [h]
  · simp [h, get]

theorem get_foldl_addBlock (inventory : Inventory) (closed : List Block) (title : String) :
    (closed.foldl addBlock inventory).get title = inventory.get title ++
      ((closed.filter fun block => block.title = title).map Block.table).filter (· ≠ []) := by
  induction closed generalizing inventory with
  | nil => simp
  | cons block rest ih =>
    rw [List.foldl_cons, ih, addBlock]
    by_cases htable : block.table = []
    · by_cases htitle : block.title = title
      · simp [htable, htitle]
      · simp [htable, htitle]
    · rw [if_neg htable, get_add]
      by_cases htitle : block.title = title
      · simp [htable, htitle]
      · simp [htitle]

theorem ordered_foldl_addBlock {inventory : Inventory} (h : inventory.sections.Ordered)
    (closed : List Block) : (closed.foldl addBlock inventory).sections.Ordered := by
  induction closed generalizing inventory with
  | nil => exact h
  | cons block rest ih =>
    apply ih
    rw [addBlock]
    split
    · exact h
    · exact h.insert _ _

-- No title is kept without a section.
theorem mem_titles_foldl_addBlock {inventory : Inventory} {title : String}
    (h : title ∈ inventory.titles ↔ inventory.get title ≠ []) (closed : List Block) :
    title ∈ (closed.foldl addBlock inventory).titles ↔
      (closed.foldl addBlock inventory).get title ≠ [] := by
  induction closed generalizing inventory with
  | nil => exact h
  | cons block rest ih =>
    apply ih
    rw [addBlock]
    split
    · exact h
    · rw [get_add, titles, Dict.mem_keys_iff, add, Dict.get?_insert]
      by_cases htitle : block.title = title
      · simp [htitle]
      · rw [if_neg htitle, if_neg htitle, ← Dict.mem_keys_iff]
        exact h

/-- The inventory of the blocks of some lines. -/
def ofBlocks (lines : List String) : Inventory :=
  (blocks (lines.map String.toList)).foldl addBlock ⟨[]⟩

theorem close_foldl_read_empty (lines : List String) :
    (lines.foldl Progress.read {}).close = ofBlocks lines := close_foldl_read lines {}

theorem mem_titles_ofBlocks {lines : List String} {title : String} :
    title ∈ (ofBlocks lines).titles ↔ (ofBlocks lines).get title ≠ [] :=
  mem_titles_foldl_addBlock (by simp [titles, Dict.keys, get]) _

theorem get_ofBlocks (lines : List String) (title : String) :
    (ofBlocks lines).get title =
      (((blocks (lines.map String.toList)).filter fun block => block.title = title).map
        Block.table).filter (· ≠ []) := by
  rw [ofBlocks, get_foldl_addBlock]
  rfl

theorem sections_ofBlocks_eq_nil_iff {lines : List String} :
    (ofBlocks lines).sections = [] ↔
      ∀ block ∈ blocks (lines.map String.toList), block.table = [] := by
  have htitles : (ofBlocks lines).sections = [] ↔ ∀ title, (ofBlocks lines).get title = [] := by
    have hkeys : (ofBlocks lines).sections = [] ↔ ∀ title, title ∉ (ofBlocks lines).titles := by
      rw [← List.eq_nil_iff_forall_not_mem, titles, Dict.keys, List.map_eq_nil_iff]
    rw [hkeys]
    simp only [mem_titles_ofBlocks, ne_eq, not_not]
  rw [htitles]
  simp only [get_ofBlocks, List.filter_eq_nil_iff, List.mem_map, List.mem_filter]
  apply Iff.intro
  · intro h block hblock
    simpa using h block.title block.table ⟨block, ⟨hblock, by simp⟩, rfl⟩
  · intro h title values hvalues
    rcases hvalues with ⟨block, ⟨hblock, -⟩, rfl⟩
    simp [h block hblock]

theorem ofLines?_eq (lines : List String) :
    ofLines? lines = if (ofBlocks lines).sections = [] then none else some (ofBlocks lines) := by
  rw [ofLines?, close_foldl_read_empty]

theorem ofLines?_eq_none_iff_sections (lines : List String) :
    ofLines? lines = none ↔ (ofBlocks lines).sections = [] := by
  rw [ofLines?_eq]
  split <;> simp_all

theorem ofLines?_eq_none_iff (lines : List String) :
    ofLines? lines = none ↔
      ∀ block ∈ blocks (lines.map String.toList), ∀ line ∈ block.body,
        ¬ IsEntry block.keyIndent line := by
  rw [ofLines?_eq_none_iff_sections, sections_ofBlocks_eq_nil_iff]
  exact forall₂_congr fun block _ => Block.table_eq_nil_iff

theorem eq_ofBlocks_of_ofLines? {lines : List String} {inventory : Inventory}
    (h : ofLines? lines = some inventory) : inventory = ofBlocks lines := by
  rw [ofLines?_eq] at h
  split at h
  · cases h
  · exact (Option.some.inj h).symm

/-- Reading the lines of an inventory gives its blocks: under each title the tables of the blocks
with this title that have entries, in order, and in the table of a block the value of the last entry
of each key. -/
theorem ofLines?_reads_blocks (lines : List String) :
    (∀ block ∈ blocks (lines.map String.toList), block.table.Ordered ∧
      (∀ key, key ∈ Dict.keys block.table ↔
        ∃ line ∈ block.body, ∃ text, Enters block.keyIndent line key text) ∧
      ∀ key value, Dict.get? block.table key = some value ↔ block.Holds key value) ∧
    (ofLines? lines = none ↔
      ∀ block ∈ blocks (lines.map String.toList), ∀ line ∈ block.body,
        ¬ IsEntry block.keyIndent line) ∧
    ∀ inventory, ofLines? lines = some inventory →
      (∀ title, inventory.get title =
        (((blocks (lines.map String.toList)).filter fun block => block.title = title).map
          Block.table).filter (· ≠ [])) ∧
      inventory.titles.Pairwise (· < ·) ∧
      ∀ title, title ∈ inventory.titles ↔ inventory.get title ≠ [] := by
  refine ⟨?_, ofLines?_eq_none_iff lines, ?_⟩
  · intro block _
    exact ⟨Dict.ordered_ofList _, fun _ => Block.mem_keys_table, fun _ _ => Block.get?_table_iff⟩
  · intro inventory h
    rcases eq_ofBlocks_of_ofLines? h with rfl
    refine ⟨get_ofBlocks lines, ?_, fun _ => mem_titles_ofBlocks⟩
    exact List.pairwise_map.2 (ordered_foldl_addBlock List.Pairwise.nil _)

/-- A repeated key keeps the text and the continuation of its last entry only, a line without a
colon does not come between them, and the last section needs no line to end it. -/
theorem repeated_key_keeps_last_entry :
    ofLines? ["Handle 0x1100", "Memory Device", "\tSize: 4 GB", "\t\tstale", "\tno colon",
        "\tSize: 8 GB", "\tno colon", "\t\tfresh"] =
      some ⟨[("memory_device", [[("size", "8 GB\nfresh")]])]⟩ ∧
    (((blocks (["Handle 0x1100", "Memory Device", "\tSize: 4 GB", "\t\tstale", "\tno colon",
        "\tSize: 8 GB", "\tno colon", "\t\tfresh"].map String.toList)).filter
          fun block => block.title = "memory_device").map Block.table).filter (· ≠ []) =
      [[("size", "8 GB\nfresh")]] := by
  have hread : ofLines? ["Handle 0x1100", "Memory Device", "\tSize: 4 GB", "\t\tstale",
      "\tno colon", "\tSize: 8 GB", "\tno colon", "\t\tfresh"] =
    some ⟨[("memory_device", [[("size", "8 GB\nfresh")]])]⟩ := by
    decide +kernel
  refine ⟨hread, ?_⟩
  rw [← ((ofLines?_reads_blocks _).2.2 _ hread).1 "memory_device"]
  rfl

end HostSurvey.Inventory
