import HostSurvey.Command.Basic
import HostSurvey.Files.Tree

/-!
# Commands on files that stay as they are

The operations that read files may be expected to leave the file system as it is. Everything that
the commands do before they write a file then leaves it so too, and what comes of it is told by what
the operations read in the one state.
-/

namespace HostSurvey

variable {σ : Type} {α β : Type}

/-- A computation comes to the result of another one, which has no state, and leaves the state that
it starts from as it is. -/
def ComesTo (x : StateM σ α) (s : σ) (y : Id α) : Prop := x.run s = (y.run, s)

namespace ComesTo

variable {x : StateM σ α} {f : α → StateM σ β} {s : σ} {y : Id α} {g : α → Id β}

theorem pure (a : α) (s : σ) : ComesTo (Pure.pure a) s (Pure.pure a) := rfl

theorem bind (hx : ComesTo x s y) (hf : ∀ a, ComesTo (f a) s (g a)) :
    ComesTo (x >>= f) s (y >>= g) := by
  show (x >>= f).run s = (g y.run, s)
  rw [StateT.run_bind, hx]
  exact hf y.run

theorem of_state (h : (x.run s).2 = s) : ComesTo x s (x.run s).1 := Prod.ext rfl h

end ComesTo

/-! ## Reading files -/

namespace FileAccess

variable (files : FileAccess (StateM σ)) (s : σ)

/-- Reading files leaves a state of the file system as it is. -/
structure ReadOnly : Prop where
  readText : ∀ path, ((files.readText path).run s).2 = s
  isDirectory : ∀ path, ((files.isDirectory path).run s).2 = s
  isFile : ∀ path, ((files.isFile path).run s).2 = s
  regularFiles : ∀ path, ((files.regularFiles path).run s).2 = s

/-- The files as they are found in one state. -/
def seenAt : FileAccess Id where
  readText path := ((files.readText path).run s).1
  isDirectory path := ((files.isDirectory path).run s).1
  isFile path := ((files.isFile path).run s).1
  regularFiles path := ((files.regularFiles path).run s).1
  writeText path text := ((files.writeText path text).run s).1

end FileAccess

theorem FileTree.readOnly_access (tree : FileTree) : FileTree.access.ReadOnly tree :=
  ⟨fun _ => rfl, fun _ => rfl, fun _ => rfl, fun _ => rfl⟩

section

variable {files : FileAccess (StateM σ)} {s : σ}

namespace FileAccess.ReadOnly

variable (readOnly : files.ReadOnly s)

include readOnly

theorem comesTo_readText (path : String) :
    ComesTo (files.readText path) s ((files.seenAt s).readText path) :=
  .of_state (readOnly.readText path)

theorem comesTo_isDirectory (path : String) :
    ComesTo (files.isDirectory path) s ((files.seenAt s).isDirectory path) :=
  .of_state (readOnly.isDirectory path)

theorem comesTo_isFile (path : String) :
    ComesTo (files.isFile path) s ((files.seenAt s).isFile path) :=
  .of_state (readOnly.isFile path)

theorem comesTo_regularFiles (path : String) :
    ComesTo (files.regularFiles path) s ((files.seenAt s).regularFiles path) :=
  .of_state (readOnly.regularFiles path)

/-! ## Loading -/

theorem comesTo_loadConfig (directory : String) (given : Option String) :
    ComesTo (Config.load files directory given) s
      (Config.load (files.seenAt s) directory given) := by
  apply ComesTo.bind (readOnly.comesTo_readText _)
  intro read
  cases read with
  | ok text => exact .pure _ s
  | error cause =>
    dsimp only
    split
    · exact .pure _ s
    · exact .pure _ s

theorem comesTo_loadSchedule (given : Option String) :
    ComesTo (Command.loadSchedule files given) s
      (Command.loadSchedule (files.seenAt s) given) := by
  apply ComesTo.bind (readOnly.comesTo_loadConfig _ _)
  intro loaded
  cases loaded with
  | error cause => exact .pure _ s
  | ok config =>
    dsimp only
    cases config.schedule with
    | error cause => exact .pure _ s
    | ok schedule => exact .pure _ s

theorem comesTo_readMetadata (path : String) :
    ComesTo (HostDirectory.readMetadata files path) s
      (HostDirectory.readMetadata (files.seenAt s) path) := by
  apply ComesTo.bind (readOnly.comesTo_isFile _)
  intro present
  cases present with
  | false => exact .pure _ s
  | true =>
    apply ComesTo.bind (readOnly.comesTo_readText _)
    intro read
    cases read with
    | error cause => exact .pure _ s
    | ok text =>
      dsimp only
      cases Metadata.ofText? text with
      | none => exact .pure _ s
      | some metadata => exact .pure _ s

theorem comesTo_loadMetadata (directory metadataFile : String) :
    ComesTo (HostDirectory.loadMetadata files directory metadataFile) s
      (HostDirectory.loadMetadata (files.seenAt s) directory metadataFile) := by
  apply ComesTo.bind (readOnly.comesTo_readMetadata _)
  intro read
  cases read with
  | error e => exact .pure _ s
  | ok metadata => exact .pure _ s

theorem comesTo_loadArtifacts (directory : String) (categories : Dict Category)
    (metadataFile : String) (metadata : Metadata) (names : List FileName) :
    ComesTo (HostDirectory.loadArtifacts files directory categories metadataFile metadata names) s
      (HostDirectory.loadArtifacts (files.seenAt s) directory categories metadataFile metadata
        names) := by
  induction names with
  | nil => exact .pure _ s
  | cons fileName rest ih =>
    unfold HostDirectory.loadArtifacts
    cases fileName.text? with
    | none => exact .pure _ s
    | some name =>
      dsimp only
      cases HostDirectory.category? categories metadataFile name with
      | none => exact ih
      | some category =>
        apply ComesTo.bind (readOnly.comesTo_readText _)
        intro read
        cases read with
        | error cause => exact .pure _ s
        | ok text =>
          apply ComesTo.bind ih
          intro loaded
          cases loaded with
          | error e => exact .pure _ s
          | ok artifacts => exact .pure _ s

theorem comesTo_loadHost (directory : String) (categories : Dict Category)
    (metadataFile : String) :
    ComesTo (HostDirectory.load files directory categories metadataFile) s
      (HostDirectory.load (files.seenAt s) directory categories metadataFile) := by
  apply ComesTo.bind (readOnly.comesTo_isDirectory _)
  intro present
  cases present with
  | false => exact .pure _ s
  | true =>
    apply ComesTo.bind (readOnly.comesTo_loadMetadata _ _)
    intro loaded
    cases loaded with
    | error e => exact .pure _ s
    | ok metadata =>
      apply ComesTo.bind (readOnly.comesTo_regularFiles _)
      intro listed
      cases listed with
      | error cause => exact .pure _ s
      | ok names =>
        apply ComesTo.bind (readOnly.comesTo_loadArtifacts _ _ _ _ _)
        intro loaded
        cases loaded with
        | error e => exact .pure _ s
        | ok artifacts => exact .pure _ s

/-! ## Surveying -/

theorem comesTo_surveyHost (config : Config) (schedule : Schedule) (directory : String) :
    ComesTo (Command.surveyHost files config schedule directory) s
      (Command.surveyHost (files.seenAt s) config schedule directory) := by
  apply ComesTo.bind (readOnly.comesTo_loadHost _ _ _)
  intro loaded
  cases loaded with
  | error e => exact .pure _ s
  | ok host => exact .pure _ s

theorem comesTo_surveyHosts (config : Config) (schedule : Schedule) (directories : List String) :
    ComesTo (Command.surveyHosts files config schedule directories) s
      (Command.surveyHosts (files.seenAt s) config schedule directories) := by
  induction directories with
  | nil => exact .pure _ s
  | cons directory rest ih =>
    apply ComesTo.bind (readOnly.comesTo_surveyHost _ _ _)
    intro host
    apply ComesTo.bind ih
    intro others
    exact .pure _ s

/-- Deriving facts leaves the files as they are unless a document is written. -/
theorem comesTo_runDerive (terminal : Bool) {options : DeriveOptions}
    (noDocument : options.json = none) :
    ComesTo (Command.runDerive files terminal options) s
      (Command.runDerive (files.seenAt s) terminal options) := by
  apply ComesTo.bind (readOnly.comesTo_loadSchedule _)
  intro loaded
  cases loaded with
  | error e => exact .pure _ s
  | ok loaded =>
    apply ComesTo.bind (readOnly.comesTo_surveyHosts _ _ _)
    intro surveyed
    rw [noDocument]
    exact .pure _ s

end FileAccess.ReadOnly

end

end HostSurvey
