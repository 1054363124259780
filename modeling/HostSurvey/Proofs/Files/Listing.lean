import HostSurvey.Proofs.Command.ReadOnly
import HostSurvey.Proofs.Text.Cutting
import Mathlib.Data.List.Nodup

/-!
# Directories and the files in them

What a directory holds can be told apart from how it is read: paths lead to entries, links followed,
the directory has entries of its own, which may be links, and the operating system may refuse to
read a file or to list the directory. In a file tree the names of the entries, put after the path to
the directory, lead to the files among them unless the path becomes too long.
-/

namespace HostSurvey

namespace FileAccess

/-- The text of a file with some content, which has to be in UTF-8. -/
def textOf (content : ByteArray) : Except FileError String :=
  match String.fromUTF8? content with
  | none => .error .notUtf8
  | some text => .ok text

theorem textOf_eq_ok_iff {content : ByteArray} {text : String} :
    textOf content = .ok text ↔ String.fromUTF8? content = some text := by
  unfold textOf
  cases String.fromUTF8? content <;> simp

theorem exists_textOf_error_iff {content : ByteArray} :
    (∃ cause, textOf content = .error cause) ↔ String.fromUTF8? content = none := by
  unfold textOf
  cases String.fromUTF8? content <;> simp

/-- What can be seen of files and of what stands in one directory. -/
structure View where
  /-- What a path leads to, links followed. -/
  target? : String → Option FileEntry
  /-- The reason for which nothing is read at a path, whatever the content of the file there. -/
  unreadable? : String → Option FileError
  /-- What stands in the directory itself under a name, links not followed. -/
  inside? : FileName → Option FileEntry
  /-- The reason for which the directory is not listed. -/
  unlistable? : Option ListingError

/-- The operations on files tell what can be seen. A file in the directory is the one that the path
to the directory and the name lead to, unless that path cannot be read at. -/
structure Shows (files : FileAccess Id) (directory : String) (view : View) : Prop where
  isDirectory : ∀ path,
    (files.isDirectory path).run = true ↔ view.target? path = some .directory
  isFile : ∀ path,
    (files.isFile path).run = true ↔ ∃ content, view.target? path = some (.file content)
  unreadable : ∀ path cause, view.unreadable? path = some cause →
    (files.readText path).run = .error cause
  readText : ∀ path content, view.unreadable? path = none →
    view.target? path = some (.file content) → (files.readText path).run = textOf content
  unlistable : view.target? directory = some .directory → ∀ cause,
    view.unlistable? = some cause → (files.regularFiles directory).run = .error cause
  regularFiles : view.target? directory = some .directory → view.unlistable? = none →
    ∃ names, (files.regularFiles directory).run = .ok names ∧ names.Nodup ∧
      ∀ name, name ∈ names ↔ ∃ content, view.inside? name = some (.file content)
  entered : view.target? directory = some .directory → ∀ name content,
    view.inside? (.ofText name) = some (.file content) →
    view.unreadable? (Path.join directory name) = none →
    view.target? (Path.join directory name) = some (.file content)

theorem Shows.readText_eq {files : FileAccess Id} {directory path : String} {view : View}
    {content : ByteArray} (shows : files.Shows directory view)
    (h : view.unreadable? path = none → view.target? path = some (.file content)) :
    (files.readText path).run =
      match view.unreadable? path with
      | some cause => .error cause
      | none => textOf content := by
  cases hread : view.unreadable? path with
  | some cause => exact shows.unreadable path cause hread
  | none => exact shows.readText path content hread (h hread)

theorem Shows.decoded_of_readText {files : FileAccess Id} {directory path text : String}
    {view : View} {content : ByteArray} (shows : files.Shows directory view)
    (h : view.unreadable? path = none → view.target? path = some (.file content))
    (hread : (files.readText path).run = .ok text) : String.fromUTF8? content = some text := by
  rw [shows.readText_eq h] at hread
  split at hread
  · cases hread
  · exact textOf_eq_ok_iff.1 hread

end FileAccess

namespace FileTree

open Text

/-- A text that names one step of a path. -/
structure IsName (name : String) : Prop where
  nonempty : name ≠ ""
  notDot : name ≠ "."
  notUpwards : name ≠ ".."
  noSlash : '/' ∉ name.toList
  noNul : '\x00' ∉ name.toList
  short : name.utf8ByteSize ≤ nameLimit

variable {tree : FileTree} {links : Nat} {directory name : String} {content : ByteArray}
  {place target : List FileName} {steps rest : List String}

/-! ## Walks -/

theorem walk_name (hname : IsName name)
    (hnolink : ∀ path, tree.get? (place ++ [.ofText name]) ≠ some (.link path)) :
    tree.walk .reading links place [name] = .ok (place ++ [.ofText name]) := by
  rw [walk]
  simp only [hname.nonempty, hname.notDot, hname.notUpwards, Nat.not_lt.2 hname.short, or_self,
    if_false, reduceCtorEq, false_and]
  cases hentry : tree.get? (place ++ [.ofText name]) with
  | none => rfl
  | some entry =>
    cases entry with
    | file content => rfl
    | directory => exact walk.eq_1 ..
    | link path => exact absurd hentry (hnolink path)

-- A walk that arrives at a directory can be continued. It has not come to an end before.
theorem walk_append_name (hname : IsName name) (hdirectory : tree.get? target = some .directory)
    (hnolink : ∀ path, tree.get? (target ++ [.ofText name]) ≠ some (.link path))
    (h : tree.walk .reading links place steps = .ok target) :
    tree.walk .reading links place (steps ++ [name]) = .ok (target ++ [.ofText name]) := by
  fun_induction tree.walk .reading links place steps with
  | case1 links place =>
    cases h
    exact walk_name hname hnolink
  | case2 links place step steps hstep ih => rw [List.cons_append, walk, if_pos hstep, ih h]
  | case3 links place steps hstep ih =>
    rw [List.cons_append, walk, if_neg hstep, if_pos rfl, ih h]
  | case8 links place step steps hstep hup hwriting hshort hentry ih =>
    rw [List.cons_append, walk]
    simp [hstep, hup, hshort, hentry, ih h]
  | case13 place step steps hstep hup hwriting hshort link hentry links hlink ih =>
    rw [List.append_assoc] at ih
    rw [List.cons_append, walk]
    simp [hstep, hup, hshort, hentry, hlink, ih h]
  | case6 | case9 =>
    cases h
    simp_all
  | case4 | case5 | case7 | case10 | case11 | case12 => cases h

theorem walk_append_slash (hrest : rest ≠ []) :
    tree.walk .reading links place (steps ++ "" :: rest) =
      tree.walk .reading links place (steps ++ rest) := by
  fun_induction tree.walk .reading links place steps with
  | case1 links place => rw [List.nil_append, walk, if_pos (.inl rfl), List.nil_append]
  | case2 links place step steps hstep ih =>
    rw [List.cons_append, List.cons_append, walk, if_pos hstep, walk, if_pos hstep, ih]
  | case3 links place steps hstep ih =>
    rw [List.cons_append, List.cons_append, walk, if_neg hstep, if_pos rfl, ih, walk,
      if_neg hstep, if_pos rfl]
  | case4 links place step steps hstep hup hwriting => cases hwriting.1
  | case5 | case6 | case7 | case8 | case9 | case10 | case11 | case12 | case13 =>
    simp_all [walk]

/-! ## Paths to files in a directory -/

/-- The names in a path and the dots, in order. -/
def namesIn (path : List Char) : List String :=
  ((pieces (· == '/') path).map String.ofList).filter (· ≠ "")

theorem walkSteps_eq (path : String) :
    walkSteps path =
      if path.toList.getLast? = some '/' then namesIn path.toList ++ [""]
      else namesIn path.toList := rfl

theorem namesIn_nil : namesIn [] = [] := by simp [namesIn, pieces]

theorem namesIn_append_slash (before after : List Char) :
    namesIn (before ++ '/' :: after) = namesIn before ++ namesIn after := by
  unfold namesIn
  rw [pieces_append_cons (p := (· == '/')) rfl, List.map_append, List.filter_append]

theorem IsName.namesIn_eq (hname : IsName name) : namesIn name.toList = [name] := by
  unfold namesIn
  rw [pieces_of_not_mem hname.noSlash]
  simp [hname.nonempty]

theorem IsName.isAbsolute_eq (hname : IsName name) : Path.isAbsolute name = false := by
  rw [Path.isAbsolute, decide_eq_false_iff_not]
  exact fun h => hname.noSlash (List.mem_of_mem_head? h)

theorem IsName.getLast?_ne (hname : IsName name) : name.toList.getLast? ≠ some '/' :=
  fun h => hname.noSlash (List.mem_of_getLast? h)

-- A path into a directory has one slash before the name, which the directory may end in already.
theorem toList_join (hname : IsName name) (hdirectory : directory ≠ "") :
    ∃ stem, (Path.join directory name).toList = stem ++ '/' :: name.toList ∧
      (directory.toList = stem ++ ['/'] ∨
        directory.toList = stem ∧ stem.getLast? ≠ some '/') := by
  unfold Path.join
  rw [if_neg (by simp [hname.isAbsolute_eq, hdirectory])]
  by_cases hslash : directory.toList.getLast? = some '/'
  · rcases List.getLast?_eq_some_iff.1 hslash with ⟨stem, hstem⟩
    refine ⟨stem, ?_, .inl hstem⟩
    rw [if_pos hslash, String.toList_append, hstem, List.append_assoc, List.singleton_append]
  · refine ⟨directory.toList, ?_, .inr ⟨rfl, hslash⟩⟩
    rw [if_neg hslash, String.toList_append, String.toList_append, List.append_assoc]
    rfl

theorem startOf_join (hname : IsName name) (hdirectory : directory ≠ "") :
    startOf [] (Path.join directory name) = startOf [] directory := by
  rcases toList_join hname hdirectory with ⟨stem, hjoin, hstem⟩
  have hhead : (Path.join directory name).toList.head? = directory.toList.head? := by
    rw [hjoin]
    rcases hstem with hstem | ⟨hstem, -⟩
    · rw [hstem]
      simp [List.head?_append]
    · rw [hstem, List.head?_append_of_ne_nil]
      rw [← hstem]
      simpa using hdirectory
  unfold startOf Path.isAbsolute
  rw [hhead]

theorem walkSteps_join (hname : IsName name) (hdirectory : directory ≠ "") :
    ∃ steps, walkSteps (Path.join directory name) = steps ++ [name] ∧
      (walkSteps directory = steps ∨ walkSteps directory = steps ++ [""]) := by
  rcases toList_join hname hdirectory with ⟨stem, hjoin, hstem⟩
  have hlast : (stem ++ '/' :: name.toList).getLast? ≠ some '/' := by
    rw [List.getLast?_append_of_ne_nil _ (List.cons_ne_nil _ _), List.getLast?_cons_of_ne_nil]
    · exact hname.getLast?_ne
    · simpa using hname.nonempty
  refine ⟨namesIn stem, ?_, ?_⟩
  · rw [walkSteps_eq, hjoin, if_neg hlast, namesIn_append_slash, hname.namesIn_eq]
  · rcases hstem with hstem | ⟨hstem, hnoslash⟩
    · right
      rw [walkSteps_eq, hstem, if_pos (by simp), namesIn_append_slash, namesIn_nil,
        List.append_nil]
    · left
      rw [walkSteps_eq, hstem, if_neg hnoslash]

theorem nul_not_mem_join (hname : IsName name) (hdirectory : directory ≠ "")
    (h : '\x00' ∉ directory.toList) : '\x00' ∉ (Path.join directory name).toList := by
  rcases toList_join hname hdirectory with ⟨stem, hjoin, hstem⟩
  have hnul : '\x00' ∉ stem := by
    rcases hstem with hstem | ⟨hstem, -⟩
    · rw [hstem] at h
      exact fun hmem => h (List.mem_append_left _ hmem)
    · rw [← hstem]
      exact h
  rw [hjoin]
  simp [hnul, hname.noNul]

theorem join_ne_empty (hname : IsName name) (hdirectory : directory ≠ "") :
    Path.join directory name ≠ "" := by
  rcases toList_join hname hdirectory with ⟨stem, hjoin, -⟩
  intro h
  rw [h] at hjoin
  simp at hjoin

/-! ## Locating -/

theorem locate_eq_ok_iff {path : String} :
    tree.locate .reading path = .ok place ↔
      '\x00' ∉ path.toList ∧ path ≠ "" ∧ path.utf8ByteSize ≤ pathLimit ∧
        tree.walk .reading linkLimit (startOf [] path) (walkSteps path) = .ok place := by
  unfold locate
  by_cases hnul : '\x00' ∈ path.toList
  · simp [hnul]
  · by_cases hempty : path = ""
    · simp [hempty]
    · by_cases hlong : pathLimit < path.utf8ByteSize
      · simp [hnul, hempty, hlong, Nat.not_le.2 hlong]
      · simp [hnul, hempty, hlong, Nat.not_lt.1 hlong]

/-- A name after the path to a directory leads to what has this name there, unless it is a link. -/
theorem locate_join (hname : IsName name)
    (hlength : (Path.join directory name).utf8ByteSize ≤ pathLimit)
    (hlocate : tree.locate .reading directory = .ok place)
    (hdirectory : tree.get? place = some .directory)
    (hnolink : ∀ path, tree.get? (place ++ [.ofText name]) ≠ some (.link path)) :
    tree.locate .reading (Path.join directory name) = .ok (place ++ [.ofText name]) := by
  rcases locate_eq_ok_iff.1 hlocate with ⟨hnul, hnonempty, -, hwalk⟩
  rcases walkSteps_join hname hnonempty with ⟨steps, hsteps, hwalked⟩
  have hcontinued := walk_append_name hname hdirectory hnolink hwalk
  refine locate_eq_ok_iff.2 ⟨nul_not_mem_join hname hnonempty hnul,
    join_ne_empty hname hnonempty, hlength, ?_⟩
  rw [startOf_join hname hnonempty, hsteps]
  rcases hwalked with hwalked | hwalked
  · rw [hwalked] at hcontinued
    exact hcontinued
  · rw [hwalked, List.append_assoc] at hcontinued
    exact (walk_append_slash (List.cons_ne_nil _ _)).symm.trans hcontinued

theorem lookup_eq_ok_iff {path : String} {entry : FileEntry}
    (hlocate : tree.locate .reading path = .ok place) :
    tree.lookup path = .ok entry ↔ tree.get? place = some entry := by
  unfold lookup
  rw [hlocate]
  dsimp only
  cases tree.get? place <;> simp

theorem lookup_join (hname : IsName name)
    (hlength : (Path.join directory name).utf8ByteSize ≤ pathLimit)
    (hlocate : tree.locate .reading directory = .ok place)
    (hdirectory : tree.get? place = some .directory)
    (hfile : tree.get? (place ++ [.ofText name]) = some (.file content)) :
    tree.lookup (Path.join directory name) = .ok (.file content) := by
  have hnolink : ∀ path, tree.get? (place ++ [.ofText name]) ≠ some (.link path) := by simp [hfile]
  exact (lookup_eq_ok_iff (locate_join hname hlength hlocate hdirectory hnolink)).2 hfile

theorem lookup_join_of_free (hname : IsName name)
    (hlength : (Path.join directory name).utf8ByteSize ≤ pathLimit)
    (hlocate : tree.locate .reading directory = .ok place)
    (hdirectory : tree.get? place = some .directory)
    (hfree : tree.get? (place ++ [.ofText name]) = none) :
    tree.lookup (Path.join directory name) = .error .notFound := by
  have hnolink : ∀ path, tree.get? (place ++ [.ofText name]) ≠ some (.link path) := by simp [hfree]
  unfold lookup
  simp only [locate_join hname hlength hlocate hdirectory hnolink, hfree]

theorem utf8ByteSize_join (hname : IsName name) (hdirectory : directory ≠ "") :
    directory.utf8ByteSize + name.utf8ByteSize ≤ (Path.join directory name).utf8ByteSize := by
  unfold Path.join
  rw [if_neg (by simp [hname.isAbsolute_eq, hdirectory])]
  split
  · rw [String.utf8ByteSize_append]
  · rw [String.utf8ByteSize_append, String.utf8ByteSize_append]
    omega

/-- A directory may be reached by a path that is too long with any name after it. -/
theorem lookup_join_of_long (hname : IsName name)
    (hlocate : tree.locate .reading directory = .ok place)
    (hlong : pathLimit < directory.utf8ByteSize + name.utf8ByteSize) :
    tree.lookup (Path.join directory name) = .error .nameTooLong := by
  rcases locate_eq_ok_iff.1 hlocate with ⟨hnul, hnonempty, -, -⟩
  have hlocated : tree.locate .reading (Path.join directory name) = .error .nameTooLong := by
    unfold locate
    rw [if_neg (nul_not_mem_join hname hnonempty hnul), if_neg (join_ne_empty hname hnonempty),
      if_pos (Nat.lt_of_lt_of_le hlong (utf8ByteSize_join hname hnonempty))]
  unfold lookup
  rw [hlocated]

/-! ## Listing -/

/-- No two entries stand at one place, and none at the place outside of the working directory. -/
structure WellFormed (tree : FileTree) : Prop where
  distinct : (tree.entries.map (·.1)).Nodup
  inside : ∀ entry ∈ tree.entries, entry.1 ≠ outside

section

variable {fileName : FileName}

theorem dropLast_and_getLast?_iff {at_ : List FileName} :
    at_.dropLast = place ∧ at_.getLast? = some fileName ↔ at_ = place ++ [fileName] := by
  apply Iff.intro
  · intro h
    rcases h with ⟨rfl, hlast⟩
    exact (List.dropLast_append_getLast? fileName hlast).symm
  · intro h
    subst h
    simp

/-- The name of an entry if it is a file directly inside a place. -/
def fileNameAt? (place : List FileName) (entry : List FileName × FileEntry) : Option FileName :=
  match entry.2 with
  | .file _ => if entry.1.dropLast = place then entry.1.getLast? else none
  | _ => none

theorem filesAt_eq_filterMap : tree.filesAt place = tree.entries.filterMap (fileNameAt? place) :=
  rfl

theorem fileNameAt?_eq_some_iff {entry : List FileName × FileEntry} :
    fileNameAt? place entry = some fileName ↔
      ∃ content, entry = (place ++ [fileName], .file content) := by
  rcases entry with ⟨at_, stands⟩
  unfold fileNameAt?
  cases stands with
  | directory => simp
  | link target => simp
  | file content =>
    simp only [Option.ite_none_right_eq_some, dropLast_and_getLast?_iff, Prod.mk.injEq,
      FileEntry.file.injEq, exists_and_left, exists_eq', and_true]

theorem mem_filesAt_iff :
    fileName ∈ tree.filesAt place ↔
      ∃ content, (place ++ [fileName], .file content) ∈ tree.entries := by
  rw [filesAt_eq_filterMap, List.mem_filterMap]
  simp only [fileNameAt?_eq_some_iff]
  apply Iff.intro
  · intro h
    rcases h with ⟨_, hmem, content, rfl⟩
    exact ⟨content, hmem⟩
  · intro h
    rcases h with ⟨content, hmem⟩
    exact ⟨_, hmem, content, rfl⟩

theorem WellFormed.nodup_filesAt (wellFormed : tree.WellFormed) : (tree.filesAt place).Nodup := by
  rw [filesAt_eq_filterMap, List.Nodup, List.pairwise_filterMap]
  apply (List.pairwise_map.1 wellFormed.distinct).imp
  intro entry entry' hdistinct name hname name' hname' heq
  rcases fileNameAt?_eq_some_iff.1 hname with ⟨content, rfl⟩
  rcases fileNameAt?_eq_some_iff.1 hname' with ⟨content', rfl⟩
  exact hdistinct (by rw [heq])

theorem WellFormed.get?_eq_some_file_iff (wellFormed : tree.WellFormed) :
    tree.get? (place ++ [fileName]) = some (.file content) ↔
      (place ++ [fileName], .file content) ∈ tree.entries := by
  by_cases houtside : place ++ [fileName] = outside
  · apply Iff.intro
    · intro h
      simp [get?, houtside] at h
    · intro hmem
      exact absurd houtside (wellFormed.inside _ hmem)
  · have hget : tree.get? (place ++ [fileName]) =
        (tree.entries.find? (·.1 == place ++ [fileName])).map (·.2) := by
      simp [get?, houtside]
    rw [hget, Option.map_eq_some_iff]
    apply Iff.intro
    · intro h
      rcases h with ⟨⟨at_, entry⟩, hfind, rfl⟩
      have hat : at_ = place ++ [fileName] := by simpa using List.find?_some hfind
      rw [← hat]
      exact List.mem_of_find?_eq_some hfind
    · intro hmem
      have hsome : (tree.entries.find? (·.1 == place ++ [fileName])).isSome := by
        rw [List.find?_isSome]
        exact ⟨_, hmem, beq_self_eq_true _⟩
      rcases Option.isSome_iff_exists.1 hsome with ⟨entry, hfind⟩
      have hat : entry.1 = place ++ [fileName] := by simpa using List.find?_some hfind
      have heq := List.inj_on_of_nodup_map wellFormed.distinct
        (List.mem_of_find?_eq_some hfind) hmem hat
      exact ⟨entry, hfind, by rw [heq]⟩

end

theorem regularFiles_of_locate (hlocate : tree.locate .reading directory = .ok place)
    (hdirectory : tree.get? place = some .directory) :
    tree.regularFiles directory = .ok (tree.filesAt place) := by
  unfold regularFiles
  simp only [hlocate, hdirectory]

/-! ## What can be seen of a tree -/

/-- What can be seen of a tree and of a place in it: a path that leads nowhere is not read at. -/
def view (tree : FileTree) (place : List FileName) : FileAccess.View where
  target? path := (tree.lookup path).toOption
  unreadable? path :=
    match tree.lookup path with
    | .error cause => some cause
    | .ok _ => none
  inside? fileName := tree.get? (place ++ [fileName])
  unlistable? := none

theorem target?_view_eq_some_iff {path : String} {entry : FileEntry} :
    (tree.view place).target? path = some entry ↔ tree.lookup path = .ok entry := by
  show (tree.lookup path).toOption = some entry ↔ _
  cases tree.lookup path <;> simp [Except.toOption]

theorem target?_view_of_locate {path : String} {seen : List FileName} {entry : FileEntry}
    (hlocate : tree.locate .reading path = .ok place) (h : tree.get? place = some entry) :
    (tree.view seen).target? path = some entry :=
  target?_view_eq_some_iff.2 ((lookup_eq_ok_iff hlocate).2 h)

theorem unreadable?_view_eq_some_iff {path : String} {cause : FileError} :
    (tree.view place).unreadable? path = some cause ↔ tree.lookup path = .error cause := by
  show (match tree.lookup path with
    | .error cause => some cause
    | .ok _ => none) = some cause ↔ _
  cases tree.lookup path <;> simp

theorem unreadable?_view_eq_none_iff {path : String} :
    (tree.view place).unreadable? path = none ↔ ∃ entry, tree.lookup path = .ok entry := by
  show (match tree.lookup path with
    | .error cause => some cause
    | .ok _ => none) = none ↔ _
  cases tree.lookup path <;> simp

theorem exists_locate_of_lookup {path : String} {entry : FileEntry}
    (h : tree.lookup path = .ok entry) : ∃ place, tree.locate .reading path = .ok place := by
  unfold lookup at h
  cases hlocate : tree.locate .reading path with
  | error cause =>
    rw [hlocate] at h
    cases h
  | ok place => exact ⟨place, rfl⟩

theorem shows_access (wellFormed : tree.WellFormed)
    (hlocate : tree.locate .reading directory = .ok place)
    (named : ∀ name content, tree.get? (place ++ [.ofText name]) = some (.file content) →
      IsName name) :
    (access.seenAt tree).Shows directory (tree.view place) where
  isDirectory path := by
    show tree.isDirectory path = true ↔ _
    unfold isDirectory
    rw [target?_view_eq_some_iff]
    split <;> simp_all
  isFile path := by
    show tree.isFile path = true ↔ _
    unfold isFile
    simp only [target?_view_eq_some_iff]
    split <;> simp_all
  unreadable path cause h := by
    show tree.readText path = _
    unfold readText
    rw [unreadable?_view_eq_some_iff.1 h]
  readText path content _ h := by
    show tree.readText path = _
    unfold readText
    rw [target?_view_eq_some_iff.1 h]
    rfl
  unlistable _ cause h := nomatch h
  regularFiles hdirectory _ := by
    have hplace := (lookup_eq_ok_iff hlocate).1 (target?_view_eq_some_iff.1 hdirectory)
    refine ⟨_, regularFiles_of_locate hlocate hplace, wellFormed.nodup_filesAt,
      fun fileName => ?_⟩
    rw [mem_filesAt_iff]
    exact exists_congr fun content => wellFormed.get?_eq_some_file_iff.symm
  entered hdirectory name content hfile hreadable := by
    have hplace := (lookup_eq_ok_iff hlocate).1 (target?_view_eq_some_iff.1 hdirectory)
    rcases unreadable?_view_eq_none_iff.1 hreadable with ⟨entry, hentry⟩
    -- A path that leads somewhere is short enough.
    rcases exists_locate_of_lookup hentry with ⟨reached, hreached⟩
    rcases locate_eq_ok_iff.1 hreached with ⟨-, -, hlength, -⟩
    exact target?_view_eq_some_iff.2
      (lookup_join (named name content hfile) hlength hlocate hplace hfile)

end FileTree

end HostSurvey
