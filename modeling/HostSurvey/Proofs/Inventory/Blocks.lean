import HostSurvey.Reading.Inventory

/-!
# The blocks of an inventory

What an inventory says, told by its lines and without the pass that reads them. A title line starts
a block, which is the run of indented lines after it. An entry of a block has a key and a text; of
several entries with one key the last one counts, together with the lines that continue it.
-/

namespace HostSurvey.Inventory

open Text

/-! ## Lines and blocks -/

/-- A title is not blank, stands unindented, and is neither a handle nor a comment. -/
def IsTitleLine (line : List Char) : Prop :=
  trim line ≠ [] ∧ indentation line = 0 ∧
    ¬ "Handle ".toList <+: trim line ∧ ¬ ['#'] <+: trim line

/-- The lines of a block are neither blank nor unindented. -/
def IsIndented (line : List Char) : Prop := trim line ≠ [] ∧ indentation line ≠ 0

instance (line : List Char) : Decidable (IsTitleLine line) :=
  inferInstanceAs (Decidable (_ ∧ _ ∧ _ ∧ _))

instance (line : List Char) : Decidable (IsIndented line) := inferInstanceAs (Decidable (_ ∧ _))

/-- A title line and the run of indented lines after it. -/
structure Block where
  titleLine : List Char
  body : List (List Char)

def blocks : List (List Char) → List Block
  | [] => []
  | line :: rest =>
    if IsTitleLine line then ⟨line, rest.takeWhile fun next => IsIndented next⟩ :: blocks rest
    else blocks rest

-- A line that neither starts nor continues a block keeps what stands before it from what comes after.
theorem blocks_append_cons {line : List Char} (ht : ¬ IsTitleLine line) (hi : ¬ IsIndented line)
    (before after : List (List Char)) :
    blocks (before ++ line :: after) = blocks before ++ blocks after := by
  induction before with
  | nil => simp [blocks, ht]
  | cons first rest ih =>
    have hbody : (rest ++ line :: after).takeWhile (fun next => IsIndented next) =
        rest.takeWhile (fun next => IsIndented next) := by
      rw [List.takeWhile_append, List.takeWhile_cons_of_neg (by simpa using hi), List.append_nil]
      split
      · next hall => exact (List.takeWhile_prefix _).eq_of_length hall |>.symm
      · rfl
    rw [List.cons_append, blocks, blocks, hbody, ih]
    split
    · rw [List.cons_append]
    · rfl

/-! ## Entries -/

section Entries

variable (keyIndent : Nat)

/-- A line that is no deeper than the keys enters a text under a key: it has a colon, and a letter
or a digit before the first one. -/
structure Enters (line : List Char) (key text : String) : Prop where
  shallow : indentation line ≤ keyIndent
  split : ∃ label rest, trim line = label ++ ':' :: rest ∧ ':' ∉ label ∧ canonicalKey label ≠ [] ∧
    key = String.ofList (canonicalKey label) ∧ text = String.ofList (trim rest)

def IsEntry (line : List Char) : Prop := ∃ key text, Enters keyIndent line key text

/-- The key and the text that a line enters, if it is an entry. -/
def entryAt? (line : List Char) : Option (String × String) :=
  if indentation line ≤ keyIndent then entry? (trim line) else none

variable {keyIndent} in
theorem entryAt?_eq_some_iff {line : List Char} {key text : String} :
    entryAt? keyIndent line = some (key, text) ↔ Enters keyIndent line key text := by
  apply Iff.intro
  · intro h
    rw [entryAt?] at h
    split at h
    · next hshallow =>
      unfold entry? at h
      split at h
      · simp at h
      · next label rest hsplit =>
        rw [splitAtFirst?_eq_some_iff] at hsplit
        by_cases hkey : canonicalKey label = []
        · simp [hkey] at h
        · simp only [hkey, if_false, Option.some.injEq, Prod.mk.injEq] at h
          exact ⟨hshallow, label, rest, hsplit.1, hsplit.2, hkey, h.1.symm, h.2.symm⟩
    · simp at h
  · intro h
    rcases h with ⟨hshallow, label, rest, hline, hlabel, hkey, rfl, rfl⟩
    have hsplit : splitAtFirst? ':' (trim line) = some (label, rest) :=
      splitAtFirst?_eq_some_iff.2 ⟨hline, hlabel⟩
    rw [entryAt?, if_pos hshallow, entry?, hsplit]
    simp [hkey]

variable {keyIndent} in
theorem isSome_entryAt?_iff {line : List Char} :
    (entryAt? keyIndent line).isSome = true ↔ IsEntry keyIndent line := by
  rw [Option.isSome_iff_exists, Prod.exists]
  simp only [entryAt?_eq_some_iff, IsEntry]

variable {keyIndent} in
theorem entryAt?_eq_none_iff {line : List Char} :
    entryAt? keyIndent line = none ↔ ∀ key text, ¬ Enters keyIndent line key text := by
  rw [← Option.not_isSome_iff_eq_none, isSome_entryAt?_iff]
  simp only [IsEntry, not_exists]

instance (line : List Char) : Decidable (IsEntry keyIndent line) :=
  decidable_of_iff _ isSome_entryAt?_iff

/-- The lines that continue an entry: of those up to the next entry, the ones deeper than the
keys. -/
def continuations (after : List (List Char)) : List String :=
  ((after.takeWhile fun line => ¬ IsEntry keyIndent line).filter
    fun line => keyIndent < indentation line).map fun line => String.ofList (trim line)

/-- The text of an entry, unless it is empty, and the lines that continue it, one below the
other. -/
def valueOf (text : String) (more : List String) : String :=
  "\n".intercalate (if text = "" then more else text :: more)

/-- Of the entries with a key, the last one has the text, and some lines come after it. -/
def LastEntry (body : List (List Char)) (key text : String) (after : List (List Char)) : Prop :=
  ∃ before line, body = before ++ line :: after ∧ Enters keyIndent line key text ∧
    ∀ later ∈ after, ∀ other, ¬ Enters keyIndent later key other

/-- The entries of a block in order, each with its value. -/
def entries : List (List Char) → List (String × String)
  | [] => []
  | line :: rest =>
    match entryAt? keyIndent line with
    | none => entries rest
    | some (key, text) => (key, valueOf text (continuations keyIndent rest)) :: entries rest

end Entries

namespace Block

/-- The title of a block in canonical form. -/
def title (block : Block) : String := String.ofList (canonicalKey (trim block.titleLine))

/-- The keys of a block are indented as its first line is. -/
def keyIndent (block : Block) : Nat := (block.body.head?.map indentation).getD 0

/-- A key has the value of the last entry with it. -/
def Holds (block : Block) (key value : String) : Prop :=
  ∃ text after, LastEntry block.keyIndent block.body key text after ∧
    value = valueOf text (continuations block.keyIndent after)

/-- The values of a block by their keys. -/
def table (block : Block) : InventorySection :=
  Dict.ofList (Inventory.entries block.keyIndent block.body)

end Block

/-! ## The table of a block -/

variable {keyIndent : Nat} {body rest after : List (List Char)} {line : List Char}
  {key text value : String}

theorem mem_keys_entries :
    key ∈ (entries keyIndent body).map (·.1) ↔
      ∃ line ∈ body, ∃ text, Enters keyIndent line key text := by
  induction body with
  | nil => simp [entries]
  | cons line rest ih =>
    rw [entries]
    cases hentry : entryAt? keyIndent line with
    | none =>
      have hnot := entryAt?_eq_none_iff.1 hentry key
      simp [ih, hnot]
    | some entry =>
      have hhead : (∃ text, Enters keyIndent line key text) ↔ key = entry.1 := by
        simp only [← entryAt?_eq_some_iff, hentry, Option.some.injEq, Prod.ext_iff]
        exact ⟨fun ⟨_, h, _⟩ => h.symm, fun h => ⟨entry.2, h.symm, rfl⟩⟩
      simp [ih, hhead]

-- The last entry with a key is one of the rest, or else the first line.
theorem lastEntry_cons_iff :
    LastEntry keyIndent (line :: rest) key text after ↔
      LastEntry keyIndent rest key text after ∨
        (after = rest ∧ Enters keyIndent line key text ∧
          ∀ later ∈ rest, ∀ other, ¬ Enters keyIndent later key other) := by
  apply Iff.intro
  · intro h
    rcases h with ⟨before, last, hbody, henters, hlast⟩
    cases before with
    | nil =>
      rcases List.cons.inj hbody with ⟨rfl, rfl⟩
      exact .inr ⟨rfl, henters, hlast⟩
    | cons first before =>
      rcases List.cons.inj hbody with ⟨rfl, rfl⟩
      exact .inl ⟨before, last, rfl, henters, hlast⟩
  · intro h
    rcases h with h | h
    · rcases h with ⟨before, last, rfl, henters, hlast⟩
      exact ⟨line :: before, last, rfl, henters, hlast⟩
    · rcases h with ⟨rfl, henters, hlast⟩
      exact ⟨[], line, rfl, henters, hlast⟩

theorem get?_entries_eq_none_iff :
    Dict.get? (Dict.ofList (entries keyIndent body)) key = none ↔
      ∀ line ∈ body, ∀ text, ¬ Enters keyIndent line key text := by
  rw [← Option.not_isSome_iff_eq_none, ← Dict.mem_keys_iff, Dict.mem_keys_ofList, mem_keys_entries]
  simp only [not_exists, not_and]

theorem get?_entries_eq_some_iff :
    Dict.get? (Dict.ofList (entries keyIndent body)) key = some value ↔
      ∃ text after, LastEntry keyIndent body key text after ∧
        value = valueOf text (continuations keyIndent after) := by
  induction body with
  | nil => simp [entries, Dict.ofList, LastEntry]
  | cons line rest ih =>
    simp only [lastEntry_cons_iff, or_and_right, exists_or, ← ih]
    rw [entries]
    cases hentry : entryAt? keyIndent line with
    | none =>
      have hnot := entryAt?_eq_none_iff.1 hentry key
      simp [hnot]
    | some entry =>
      rcases entry with ⟨k, t⟩
      have henters : ∀ text, Enters keyIndent line key text ↔ k = key ∧ t = text := by
        intro text
        rw [← entryAt?_eq_some_iff, hentry, Option.some.injEq, Prod.mk.injEq]
      simp only [Dict.get?_ofList_cons, ← get?_entries_eq_none_iff, henters]
      cases hrest : Dict.get? (Dict.ofList (entries keyIndent rest)) key with
      | some later => simp
      | none =>
        by_cases hkey : k = key
        · simp only [hkey, ↓reduceIte, Option.or_some, Option.getD_none, Option.some.injEq,
            reduceCtorEq, true_and, and_true, false_or]
          refine ⟨fun h => ⟨t, rest, ⟨rfl, rfl⟩, h.symm⟩, ?_⟩
          intro h
          rcases h with ⟨_, _, ⟨rfl, rfl⟩, h⟩
          exact h.symm
        · simp [hkey]

namespace Block

variable {block : Block}

theorem get?_table_iff {key value : String} :
    Dict.get? block.table key = some value ↔ block.Holds key value :=
  get?_entries_eq_some_iff

theorem mem_keys_table {key : String} :
    key ∈ Dict.keys block.table ↔
      ∃ line ∈ block.body, ∃ text, Enters block.keyIndent line key text := by
  rw [table, Dict.mem_keys_ofList, mem_keys_entries]

theorem table_eq_nil_iff :
    block.table = [] ↔ ∀ line ∈ block.body, ¬ IsEntry block.keyIndent line := by
  have hkeys : block.table = [] ↔ ∀ key, key ∉ Dict.keys block.table := by
    rw [← List.eq_nil_iff_forall_not_mem, Dict.keys, List.map_eq_nil_iff]
  rw [hkeys]
  simp only [mem_keys_table, IsEntry]
  apply Iff.intro
  · intro h line hline hentry
    rcases hentry with ⟨key, text, henters⟩
    exact h key ⟨line, hline, text, henters⟩
  · intro h key hkey
    rcases hkey with ⟨line, hline, text, henters⟩
    exact h line hline ⟨key, text, henters⟩

end Block

end HostSurvey.Inventory
