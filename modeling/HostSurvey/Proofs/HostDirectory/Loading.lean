import HostSurvey.Proofs.Files.Listing
import HostSurvey.Proofs.Text.ByteOrder

/-!
# What is loaded from a host directory

A host directory is loaded as a whole or not at all. What is loaded are the regular files directly
in the directory that are listed as artifacts, in the order of the bytes of their names, with the
metadata of the host, whose file may be reached by a link. Nothing is loaded when the directory
cannot be listed or one of these files or the metadata cannot be read, and also when the name of any
regular file in the directory is no text.
-/

namespace HostSurvey.HostDirectory

/-! ## What there is to be loaded -/

/-- An artifact file with its text. -/
@[ext]
structure ArtifactFile where
  name : String
  category : Category
  text : String

/-- The artifact in a file. -/
def ArtifactFile.artifact (directory : String) (metadata : Metadata) (file : ArtifactFile) :
    Artifact where
  category := file.category
  lines := Artifact.linesOfText file.text
  metadata := metadata
  path := some (Path.join directory file.name)

/-- A file is to be loaded: it stands in the directory itself, not behind a link, its name is listed
with a category, and it is not the metadata file. -/
structure Selected (view : FileAccess.View) (categories : Dict Category)
    (metadataFile name : String) (category : Category) (content : ByteArray) : Prop where
  entry : view.inside? (.ofText name) = some (.file content)
  listed : Dict.get? categories name = some category
  notMetadata : name ≠ metadataFile

/-- The metadata that are told by what a path leads to. -/
inductive TellsMetadata : Option FileEntry → Metadata → Prop
  | missing {target : Option FileEntry} (h : ∀ content, target ≠ some (.file content)) :
    TellsMetadata target {}
  | file {content : ByteArray} {text : String} {metadata : Metadata}
      (decoded : String.fromUTF8? content = some text)
      (valid : Metadata.ofText? text = some metadata) :
    TellsMetadata (some (.file content)) metadata

/-- What is wrong with a host directory itself: it is none, or the content of its metadata file or
of an artifact file cannot be used. -/
inductive Flawed (directory : String) (view : FileAccess.View) (categories : Dict Category)
    (metadataFile : String) : Prop
  | notDirectory (h : view.target? directory ≠ some .directory)
  | metadata {content : ByteArray}
      (h : view.target? (Path.join directory metadataFile) = some (.file content))
      (invalid : ∀ text, String.fromUTF8? content = some text → Metadata.ofText? text = none)
  | artifact {name : String} {category : Category} {content : ByteArray}
      (selected : Selected view categories metadataFile name category content)
      (undecodable : String.fromUTF8? content = none)

/-- Why a host directory cannot be loaded: it is flawed, or it cannot be listed, or its metadata
file or an artifact file cannot be read. -/
inductive Unloadable (directory : String) (view : FileAccess.View) (categories : Dict Category)
    (metadataFile : String) : Prop
  | flawed (h : Flawed directory view categories metadataFile)
  | metadata {content : ByteArray} {cause : FileError}
      (h : view.target? (Path.join directory metadataFile) = some (.file content))
      (unreadable : view.unreadable? (Path.join directory metadataFile) = some cause)
  | unlistable {cause : ListingError} (h : view.unlistable? = some cause)
  | artifact {name : String} {category : Category} {content : ByteArray} {cause : FileError}
      (selected : Selected view categories metadataFile name category content)
      (unreadable : view.unreadable? (Path.join directory name) = some cause)

/-- The name of some regular file in the directory is no text. Such a file is listed by no name, and
yet nothing is loaded beside it. -/
def HasUndecodableName (view : FileAccess.View) : Prop :=
  ∃ fileName content, view.inside? fileName = some (.file content) ∧ fileName.text? = none

/-- What is loaded from a host directory. -/
structure LoadedFrom (directory : String) (view : FileAccess.View) (categories : Dict Category)
    (metadataFile : String) (host : HostArtifacts) (loaded : List ArtifactFile) : Prop where
  metadata : ∃ told, TellsMetadata (view.target? (Path.join directory metadataFile)) told ∧
    host.metadata = { told with hostname := told.hostname.or (Path.fileName? directory) }
  ascending : loaded.Pairwise fun a b => Text.bytes a.name < Text.bytes b.name
  selected : ∀ file, file ∈ loaded ↔ ∃ content,
    Selected view categories metadataFile file.name file.category content ∧
      String.fromUTF8? content = some file.text
  artifacts : host.artifacts = loaded.map (ArtifactFile.artifact directory host.metadata)

/-! ## Files to be loaded -/

section

variable {names : List FileName} {categories : Dict Category} {metadataFile name : String}
  {category : Category}

theorem category?_eq_some_iff :
    category? categories metadataFile name = some category ↔
      name ≠ metadataFile ∧ Dict.get? categories name = some category := by
  unfold category?
  rw [Option.ite_none_left_eq_some]

/-- The artifact files among files of some names, with their categories. -/
def artifactFiles (categories : Dict Category) (metadataFile : String) (names : List FileName) :
    List (String × Category) :=
  names.filterMap fun fileName => fileName.text?.bind fun name =>
    (category? categories metadataFile name).map fun category => (name, category)

theorem mem_artifactFiles_iff :
    (name, category) ∈ artifactFiles categories metadataFile names ↔
      .ofText name ∈ names ∧ category? categories metadataFile name = some category := by
  unfold artifactFiles
  rw [List.mem_filterMap]
  apply Iff.intro
  · intro h
    rcases h with ⟨fileName, hmem, hlisted⟩
    rw [Option.bind_eq_some_iff] at hlisted
    rcases hlisted with ⟨text, htext, hlisted⟩
    rw [Option.map_eq_some_iff] at hlisted
    rcases hlisted with ⟨found, hfound, heq⟩
    cases heq
    rw [FileName.text?_eq_some_iff.1 htext] at hmem
    exact ⟨hmem, hfound⟩
  · intro h
    rcases h with ⟨hmem, hfound⟩
    refine ⟨_, hmem, ?_⟩
    rw [FileName.text?_ofText, Option.bind_some, hfound, Option.map_some]

theorem artifactFiles_ascending (categories : Dict Category) (metadataFile : String)
    (ascending : names.Pairwise fun a b => a.bytes < b.bytes) :
    (artifactFiles categories metadataFile names).Pairwise fun a b =>
      Text.bytes a.1 < Text.bytes b.1 := by
  unfold artifactFiles
  rw [List.pairwise_filterMap]
  apply ascending.imp
  intro a b hlt file hfile file' hfile'
  rw [Option.bind_eq_some_iff] at hfile hfile'
  rcases hfile with ⟨name, hname, hfile⟩
  rcases hfile' with ⟨name', hname', hfile'⟩
  rw [Option.map_eq_some_iff] at hfile hfile'
  rcases hfile with ⟨category, -, rfl⟩
  rcases hfile' with ⟨category', -, rfl⟩
  rw [FileName.text?_eq_some_iff.1 hname, FileName.text?_eq_some_iff.1 hname'] at hlt
  exact hlt

end

/-! ## Loading without a state -/

section

variable {files : FileAccess Id} {directory : String} {view : FileAccess.View}
  {categories : Dict Category} {metadataFile : String} {metadata : Metadata}
  {names : List FileName} {artifacts : List Artifact}

theorem exists_map_error_iff {ε α β : Type} {f : α → β} {x : Except ε α} :
    (∃ e, x.map f = .error e) ↔ ∃ e, x = .error e := by
  cases x <;> simp [Except.map]

theorem loadArtifacts_cons_of_undecodable {fileName : FileName} (h : fileName.text? = none) :
    (loadArtifacts files directory categories metadataFile metadata (fileName :: names)).run =
      .error (.nameNotUtf8 directory) := by
  rw [loadArtifacts, h]
  rfl

theorem loadArtifacts_cons_of_other {name : String}
    (h : category? categories metadataFile name = none) :
    (loadArtifacts files directory categories metadataFile metadata (.ofText name :: names)).run =
      (loadArtifacts files directory categories metadataFile metadata names).run := by
  rw [loadArtifacts, FileName.text?_ofText]
  dsimp only
  rw [h]

theorem loadArtifacts_cons_of_error {name : String} {category : Category} {cause : FileError}
    (hcategory : category? categories metadataFile name = some category)
    (h : (files.readText (Path.join directory name)).run = .error cause) :
    (loadArtifacts files directory categories metadataFile metadata (.ofText name :: names)).run =
      .error (.artifactUnreadable (Path.join directory name) cause) := by
  rw [loadArtifacts, FileName.text?_ofText]
  dsimp only
  rw [hcategory]
  dsimp only
  rw [Id.run_bind, h]
  rfl

theorem loadArtifacts_cons_of_ok (file : ArtifactFile)
    (hcategory : category? categories metadataFile file.name = some file.category)
    (h : (files.readText (Path.join directory file.name)).run = .ok file.text) :
    (loadArtifacts files directory categories metadataFile metadata
        (.ofText file.name :: names)).run =
      (loadArtifacts files directory categories metadataFile metadata names).run.map
        (file.artifact directory metadata :: ·) := by
  rw [loadArtifacts, FileName.text?_ofText]
  dsimp only
  rw [hcategory]
  dsimp only
  rw [Id.run_bind, h]
  dsimp only
  rw [Id.run_bind]
  cases (loadArtifacts files directory categories metadataFile metadata names).run <;> rfl

theorem artifactFiles_cons_of_other {name : String}
    (h : category? categories metadataFile name = none) :
    artifactFiles categories metadataFile (.ofText name :: names) =
      artifactFiles categories metadataFile names := by
  unfold artifactFiles
  rw [List.filterMap_cons, FileName.text?_ofText, Option.bind_some, h]
  rfl

theorem artifactFiles_cons_of_listed {name : String} {category : Category}
    (h : category? categories metadataFile name = some category) :
    artifactFiles categories metadataFile (.ofText name :: names) =
      (name, category) :: artifactFiles categories metadataFile names := by
  unfold artifactFiles
  rw [List.filterMap_cons, FileName.text?_ofText, Option.bind_some, h]
  rfl

-- All artifact files are read, in their order, and each gives one artifact.
theorem exists_of_loadArtifacts
    (h : (loadArtifacts files directory categories metadataFile metadata names).run =
      .ok artifacts) :
    ∃ loaded : List ArtifactFile,
      loaded.map (fun file => (file.name, file.category)) =
        artifactFiles categories metadataFile names ∧
      (∀ file ∈ loaded,
        (files.readText (Path.join directory file.name)).run = .ok file.text) ∧
      artifacts = loaded.map (ArtifactFile.artifact directory metadata) := by
  induction names generalizing artifacts with
  | nil =>
    cases h
    exact ⟨[], rfl, fun file hmem => absurd hmem List.not_mem_nil, rfl⟩
  | cons fileName rest ih =>
    cases htext : fileName.text? with
    | none =>
      rw [loadArtifacts_cons_of_undecodable htext] at h
      cases h
    | some name =>
      rcases FileName.text?_eq_some_iff.1 htext with rfl
      cases hcategory : category? categories metadataFile name with
      | none =>
        rw [loadArtifacts_cons_of_other hcategory] at h
        rw [artifactFiles_cons_of_other hcategory]
        exact ih h
      | some category =>
        rw [artifactFiles_cons_of_listed hcategory]
        cases hread : (files.readText (Path.join directory name)).run with
        | error cause =>
          rw [loadArtifacts_cons_of_error hcategory hread] at h
          cases h
        | ok text =>
          rw [loadArtifacts_cons_of_ok ⟨name, category, text⟩ hcategory hread] at h
          cases hrest : (loadArtifacts files directory categories metadataFile metadata rest).run
          with
          | error e =>
            rw [hrest] at h
            cases h
          | ok others =>
            rw [hrest] at h
            cases h
            rcases ih hrest with ⟨loaded, hlisted, htexts, rfl⟩
            refine ⟨⟨name, category, text⟩ :: loaded, ?_, ?_, rfl⟩
            · rw [List.map_cons, hlisted]
            · intro file hmem
              rcases List.mem_cons.1 hmem with rfl | hmem
              · exact hread
              · exact htexts file hmem

theorem exists_loadArtifacts_error_iff :
    (∃ e, (loadArtifacts files directory categories metadataFile metadata names).run = .error e) ↔
      (∃ fileName ∈ names, fileName.text? = none) ∨
      ∃ file ∈ artifactFiles categories metadataFile names, ∃ cause,
        (files.readText (Path.join directory file.1)).run = .error cause := by
  induction names with
  | nil =>
    apply Iff.intro
    · intro h
      rcases h with ⟨e, h⟩
      cases h
    · intro h
      rcases h with ⟨fileName, hmem, -⟩ | ⟨file, hmem, -⟩
      · cases hmem
      · cases hmem
  | cons fileName rest ih =>
    rw [List.exists_mem_cons_iff]
    cases htext : fileName.text? with
    | none => simp [loadArtifacts_cons_of_undecodable htext]
    | some name =>
      rcases FileName.text?_eq_some_iff.1 htext with rfl
      cases hcategory : category? categories metadataFile name with
      | none =>
        rw [loadArtifacts_cons_of_other hcategory, artifactFiles_cons_of_other hcategory, ih]
        simp
      | some category =>
        rw [artifactFiles_cons_of_listed hcategory, List.exists_mem_cons_iff]
        cases hread : (files.readText (Path.join directory name)).run with
        | error cause => simp [loadArtifacts_cons_of_error hcategory hread]
        | ok text =>
          rw [loadArtifacts_cons_of_ok ⟨name, category, text⟩ hcategory hread,
            exists_map_error_iff, ih]
          simp

theorem readMetadata_of_missing (shows : files.Shows directory view) {path : String}
    (h : ∀ content, view.target? path ≠ some (.file content)) :
    (readMetadata files path).run = .ok {} := by
  have hfile : (files.isFile path).run = false := by
    rw [← Bool.not_eq_true, shows.isFile path]
    exact fun ⟨content, hcontent⟩ => h content hcontent
  rw [readMetadata, Id.run_bind, hfile]
  rfl

theorem readMetadata_of_file (shows : files.Shows directory view) {path : String}
    {content : ByteArray} (h : view.target? path = some (.file content)) :
    (readMetadata files path).run =
      match (files.readText path).run with
      | .error cause => .error (.metadataUnreadable path cause)
      | .ok text =>
        match Metadata.ofText? text with
        | none => .error (.metadataMalformed path)
        | some metadata => .ok metadata := by
  have hfile : (files.isFile path).run = true := (shows.isFile path).2 ⟨content, h⟩
  rw [readMetadata, Id.run_bind, hfile, if_pos rfl, Id.run_bind]
  cases (files.readText path).run with
  | error cause => rfl
  | ok text =>
    dsimp only
    cases Metadata.ofText? text <;> rfl

theorem tellsMetadata_of_readMetadata (shows : files.Shows directory view)
    {path : String} (h : (readMetadata files path).run = .ok metadata) :
    TellsMetadata (view.target? path) metadata := by
  by_cases htarget : ∃ content, view.target? path = some (.file content)
  · rcases htarget with ⟨content, hcontent⟩
    rw [readMetadata_of_file shows hcontent] at h
    rw [hcontent]
    split at h
    · cases h
    next text hread =>
    split at h
    · cases h
    next metadata' hvalid =>
    cases h
    exact .file (shows.decoded_of_readText (fun _ => hcontent) hread) hvalid
  · have hmissing := not_exists.1 htarget
    rw [readMetadata_of_missing shows hmissing] at h
    cases h
    exact .missing hmissing

theorem exists_readMetadata_error_iff (shows : files.Shows directory view) (path : String) :
    (∃ e, (readMetadata files path).run = .error e) ↔
      ∃ content, view.target? path = some (.file content) ∧
        ((∃ cause, view.unreadable? path = some cause) ∨
          ∀ text, String.fromUTF8? content = some text → Metadata.ofText? text = none) := by
  by_cases htarget : ∃ content, view.target? path = some (.file content)
  · rcases htarget with ⟨content, hcontent⟩
    rw [readMetadata_of_file shows hcontent, hcontent, shows.readText_eq fun _ => hcontent]
    cases view.unreadable? path with
    | some cause => simp
    | none =>
      cases hdecoded : String.fromUTF8? content with
      | none => simp [FileAccess.textOf, hdecoded]
      | some text =>
        cases hvalid : Metadata.ofText? text <;> simp [FileAccess.textOf, hdecoded, hvalid]
  · have hmissing := not_exists.1 htarget
    rw [readMetadata_of_missing shows hmissing]
    simp [hmissing]

theorem loadMetadata_eq_map :
    (loadMetadata files directory metadataFile).run =
      (readMetadata files (Path.join directory metadataFile)).run.map fun metadata =>
        { metadata with hostname := metadata.hostname.or (Path.fileName? directory) } := by
  rw [loadMetadata, Id.run_bind]
  cases (readMetadata files (Path.join directory metadataFile)).run <;> rfl

theorem load_of_not_directory (h : (files.isDirectory directory).run = false) :
    (load files directory categories metadataFile).run = .error (.notDirectory directory) := by
  rw [load, Id.run_bind, h]
  rfl

theorem load_of_directory (h : (files.isDirectory directory).run = true) :
    (load files directory categories metadataFile).run =
      (loadMetadata files directory metadataFile).run.bind fun metadata =>
        ((files.regularFiles directory).run.mapError (Error.unlistable directory)).bind fun names =>
          (loadArtifacts files directory categories metadataFile metadata
            (FileName.sorted names)).run.map (HostArtifacts.mk metadata) := by
  rw [load, Id.run_bind, h, if_pos rfl, Id.run_bind]
  cases (loadMetadata files directory metadataFile).run with
  | error e => rfl
  | ok metadata =>
    show Id.run (files.regularFiles directory >>= _) = _
    rw [Id.run_bind]
    cases (files.regularFiles directory).run with
    | error cause => rfl
    | ok names =>
      show Id.run (loadArtifacts files directory categories metadataFile metadata _ >>= _) =
        (loadArtifacts files directory categories metadataFile metadata _).run.map _
      rw [Id.run_bind]
      cases (loadArtifacts files directory categories metadataFile metadata
        (FileName.sorted names)).run <;> rfl

/-! ## What loading comes to -/

theorem isDirectory_eq_false (shows : files.Shows directory view)
    (h : view.target? directory ≠ some .directory) :
    (files.isDirectory directory).run = false := by
  rw [← Bool.not_eq_true, shows.isDirectory]
  exact h

theorem exists_readText_error_iff (shows : files.Shows directory view)
    (h : view.target? directory = some .directory) {name : String} {category : Category}
    {content : ByteArray}
    (selected : Selected view categories metadataFile name category content) :
    (∃ cause, (files.readText (Path.join directory name)).run = .error cause) ↔
      (∃ cause, view.unreadable? (Path.join directory name) = some cause) ∨
        String.fromUTF8? content = none := by
  rw [shows.readText_eq (shows.entered h name content selected.entry)]
  cases view.unreadable? (Path.join directory name) with
  | some cause => simp
  | none => simp [FileAccess.exists_textOf_error_iff]

-- The names are those of the regular files in the directory.
theorem mem_artifactFiles_sorted_iff
    (hnames : ∀ fileName, fileName ∈ names ↔
      ∃ content, view.inside? fileName = some (.file content))
    {name : String} {category : Category} :
    (name, category) ∈ artifactFiles categories metadataFile (FileName.sorted names) ↔
      ∃ content, Selected view categories metadataFile name category content := by
  rw [mem_artifactFiles_iff, (FileName.sorted_perm names).mem_iff, hnames, category?_eq_some_iff]
  apply Iff.intro
  · intro h
    rcases h with ⟨⟨content, hentry⟩, hmetadata, hlisted⟩
    exact ⟨content, hentry, hlisted, hmetadata⟩
  · intro h
    rcases h with ⟨content, selected⟩
    exact ⟨⟨content, selected.entry⟩, selected.notMetadata, selected.listed⟩

theorem exists_loadArtifacts_sorted_error_iff (shows : files.Shows directory view)
    (h : view.target? directory = some .directory)
    (hnames : ∀ fileName, fileName ∈ names ↔
      ∃ content, view.inside? fileName = some (.file content)) :
    (∃ e, (loadArtifacts files directory categories metadataFile metadata
        (FileName.sorted names)).run = .error e) ↔
      HasUndecodableName view ∨
      ∃ name category content, Selected view categories metadataFile name category content ∧
        ((∃ cause, view.unreadable? (Path.join directory name) = some cause) ∨
          String.fromUTF8? content = none) := by
  rw [exists_loadArtifacts_error_iff]
  apply or_congr
  · apply Iff.intro
    · intro h
      rcases h with ⟨fileName, hmem, htext⟩
      rw [(FileName.sorted_perm names).mem_iff, hnames] at hmem
      rcases hmem with ⟨content, hentry⟩
      exact ⟨fileName, content, hentry, htext⟩
    · intro h
      rcases h with ⟨fileName, content, hentry, htext⟩
      exact ⟨fileName, (FileName.sorted_perm names).mem_iff.2 ((hnames _).2 ⟨content, hentry⟩),
        htext⟩
  · apply Iff.intro
    · intro h
      rcases h with ⟨⟨name, category⟩, hmem, hcause⟩
      rcases (mem_artifactFiles_sorted_iff hnames).1 hmem with ⟨content, selected⟩
      exact ⟨name, category, content, selected,
        (exists_readText_error_iff shows h selected).1 hcause⟩
    · intro h
      rcases h with ⟨name, category, content, selected, hfails⟩
      exact ⟨_, (mem_artifactFiles_sorted_iff hnames).2 ⟨content, selected⟩,
        (exists_readText_error_iff shows h selected).2 hfails⟩

/-- The reasons of `Unloadable` for a directory, step by step: the metadata, the list of the files,
the artifact files. -/
theorem unloadable_iff_of_directory (h : view.target? directory = some .directory) :
    Unloadable directory view categories metadataFile ↔
      (∃ content, view.target? (Path.join directory metadataFile) = some (.file content) ∧
        ((∃ cause, view.unreadable? (Path.join directory metadataFile) = some cause) ∨
          ∀ text, String.fromUTF8? content = some text → Metadata.ofText? text = none)) ∨
      (∃ cause, view.unlistable? = some cause) ∨
      ∃ name category content, Selected view categories metadataFile name category content ∧
        ((∃ cause, view.unreadable? (Path.join directory name) = some cause) ∨
          String.fromUTF8? content = none) := by
  apply Iff.intro
  · intro unloadable
    cases unloadable with
    | flawed flawed =>
      cases flawed with
      | notDirectory hnot => exact absurd h hnot
      | metadata hcontent invalid => exact .inl ⟨_, hcontent, .inr invalid⟩
      | artifact selected undecodable =>
        exact .inr (.inr ⟨_, _, _, selected, .inr undecodable⟩)
    | metadata hcontent unreadable => exact .inl ⟨_, hcontent, .inl ⟨_, unreadable⟩⟩
    | unlistable hunlistable => exact .inr (.inl ⟨_, hunlistable⟩)
    | artifact selected unreadable => exact .inr (.inr ⟨_, _, _, selected, .inl ⟨_, unreadable⟩⟩)
  · intro reason
    rcases reason with metadata | ⟨cause, hunlistable⟩ | artifact
    · rcases metadata with ⟨content, hcontent, ⟨cause, unreadable⟩ | invalid⟩
      · exact .metadata hcontent unreadable
      · exact .flawed (.metadata hcontent invalid)
    · exact .unlistable hunlistable
    · rcases artifact with ⟨name, category, content, selected, ⟨cause, unreadable⟩ | undecodable⟩
      · exact .artifact selected unreadable
      · exact .flawed (.artifact selected undecodable)

/-- A host directory is not loaded for one of the reasons of `Unloadable`, or because of a file that
nobody asked for. -/
theorem exists_load_error_iff (shows : files.Shows directory view) :
    (∃ e, (load files directory categories metadataFile).run = .error e) ↔
      Unloadable directory view categories metadataFile ∨ HasUndecodableName view := by
  by_cases h : view.target? directory = some .directory
  · rw [load_of_directory ((shows.isDirectory directory).2 h), loadMetadata_eq_map,
      unloadable_iff_of_directory h, ← exists_readMetadata_error_iff shows]
    cases (readMetadata files (Path.join directory metadataFile)).run with
    | error e => exact iff_of_true ⟨e, rfl⟩ (.inl (.inl ⟨e, rfl⟩))
    | ok told =>
      cases hunlistable : view.unlistable? with
      | some cause =>
        rw [shows.unlistable h cause hunlistable]
        exact iff_of_true ⟨_, rfl⟩ (.inl (.inr (.inl ⟨cause, rfl⟩)))
      | none =>
        rcases shows.regularFiles h hunlistable with ⟨names, hlisted, -, hnames⟩
        rw [hlisted]
        show (∃ e, (loadArtifacts files directory _ _ _ _).run.map _ = .error e) ↔ _
        rw [exists_map_error_iff, exists_loadArtifacts_sorted_error_iff shows h hnames, or_comm]
        simp
  · rw [load_of_not_directory (isDirectory_eq_false shows h)]
    exact iff_of_true ⟨_, rfl⟩ (.inl (.flawed (.notDirectory h)))

theorem mem_loaded_iff (shows : files.Shows directory view)
    (h : view.target? directory = some .directory)
    (hnames : ∀ fileName, fileName ∈ names ↔
      ∃ content, view.inside? fileName = some (.file content))
    {loaded : List ArtifactFile}
    (hlisted : loaded.map (fun file => (file.name, file.category)) =
      artifactFiles categories metadataFile (FileName.sorted names))
    (htexts : ∀ file ∈ loaded,
      (files.readText (Path.join directory file.name)).run = .ok file.text) {file : ArtifactFile} :
    file ∈ loaded ↔ ∃ content,
      Selected view categories metadataFile file.name file.category content ∧
        String.fromUTF8? content = some file.text := by
  have hselected : ∀ file ∈ loaded, ∀ content,
      Selected view categories metadataFile file.name file.category content →
        String.fromUTF8? content = some file.text := by
    intro file hfile content selected
    exact shows.decoded_of_readText (shows.entered h _ _ selected.entry) (htexts file hfile)
  apply Iff.intro
  · intro hfile
    have hnamed : (file.name, file.category) ∈ loaded.map fun file => (file.name, file.category) :=
      List.mem_map_of_mem hfile
    rw [hlisted, mem_artifactFiles_sorted_iff hnames] at hnamed
    rcases hnamed with ⟨content, selected⟩
    exact ⟨content, selected, hselected file hfile content selected⟩
  · intro h
    rcases h with ⟨content, selected, hdecoded⟩
    have hnamed := (mem_artifactFiles_sorted_iff hnames).2 ⟨content, selected⟩
    rw [← hlisted, List.mem_map] at hnamed
    rcases hnamed with ⟨found, hfound, hsame⟩
    rcases Prod.mk.inj hsame with ⟨hname, hcategory⟩
    have htext := hselected found hfound content (by rw [hname, hcategory]; exact selected)
    rw [hdecoded, Option.some.injEq] at htext
    rw [← ArtifactFile.ext hname hcategory htext.symm]
    exact hfound

theorem exists_loadedFrom (shows : files.Shows directory view) {host : HostArtifacts}
    (h : (load files directory categories metadataFile).run = .ok host) :
    ∃ loaded, LoadedFrom directory view categories metadataFile host loaded := by
  have loadable : ¬ Unloadable directory view categories metadataFile := by
    intro unloadable
    rcases (exists_load_error_iff shows).2 (.inl unloadable) with ⟨e, he⟩
    rw [h] at he
    cases he
  have hdirectory : view.target? directory = some .directory := by
    by_contra hnot
    exact loadable (.flawed (.notDirectory hnot))
  have hlistable : view.unlistable? = none := by
    rw [Option.eq_none_iff_forall_ne_some]
    exact fun cause hcause => loadable (.unlistable hcause)
  rcases shows.regularFiles hdirectory hlistable with ⟨names, hlisted, distinct, hnames⟩
  rw [load_of_directory ((shows.isDirectory directory).2 hdirectory), loadMetadata_eq_map,
    hlisted] at h
  cases hread : (readMetadata files (Path.join directory metadataFile)).run with
  | error e =>
    rw [hread] at h
    cases h
  | ok told =>
    rw [hread] at h
    change (loadArtifacts files directory _ _ _ _).run.map _ = _ at h
    cases hartifacts : (loadArtifacts files directory categories metadataFile
        { told with hostname := told.hostname.or (Path.fileName? directory) }
        (FileName.sorted names)).run with
    | error e =>
      rw [hartifacts] at h
      cases h
    | ok artifacts =>
      rw [hartifacts] at h
      cases h
      rcases exists_of_loadArtifacts hartifacts with ⟨loaded, hartifactFiles, htexts, rfl⟩
      refine ⟨loaded, ⟨told, tellsMetadata_of_readMetadata shows hread, rfl⟩, ?_, ?_, rfl⟩
      · have hascending := artifactFiles_ascending categories metadataFile
          (FileName.sorted_ascending distinct)
        rw [← hartifactFiles, List.pairwise_map] at hascending
        exact hascending
      · exact fun file => mem_loaded_iff shows hdirectory hnames hartifactFiles htexts

end

end HostSurvey.HostDirectory
