import HostSurvey.Artifact.Basic
import HostSurvey.Calendar.InstantReader
import HostSurvey.Dict
import HostSurvey.Files.Access
import HostSurvey.Files.Path
import HostSurvey.Text.Note
import HostSurvey.Text.Numeral
import HostSurvey.Toml.Document

/-!
# Host directories

What was collected from a host stands in one directory: the artifacts, each in a file whose name
tells its category, and possibly a file with the metadata of the host. All artifacts are loaded, in
the order of their file names, or none: a directory that cannot be listed, a file that cannot be
read, and any regular file whose name is no text are errors.
-/

namespace HostSurvey

/-! ## Metadata files -/

namespace Metadata

/-- The metadata after one more field, if there is such a field and it can take the value. -/
def setField (metadata : Metadata) (name : String) (value : Toml.Value) : Option Metadata :=
  match name with
  | "hostname" => value.text?.map fun s => { metadata with hostname := some s }
  | "machine_id" => value.text?.map fun s => { metadata with machineId := some s }
  | "release" => value.text?.map fun s => { metadata with release := some s }
  | "major" => (value.number? Text.wordLimit).map fun n => { metadata with major := some n }
  | "minor" => (value.number? Text.wordLimit).map fun n => { metadata with minor := some n }
  | "arch" => value.text?.map fun s => { metadata with arch := some s }
  | "product" => value.text?.map fun s => { metadata with product := some s }
  | "collected_at" =>
    (value.text?.bind fun s => Instant.ofText? s.toList).map fun t =>
      { metadata with collectedAt := some t }
  | _ => none

def ofTable? (table : Toml.Table) : Option Metadata :=
  table.foldlM (fun metadata (name, value) => metadata.setField name value) {}

def ofText? (text : String) : Option Metadata := (Toml.document? text).bind ofTable?

end Metadata

/-! ## Loading -/

/-- What was collected from a host. -/
structure HostArtifacts where
  metadata : Metadata
  artifacts : List Artifact

namespace HostDirectory

/-- Why a host directory cannot be loaded. -/
inductive Error
  | notDirectory (directory : String)
  | metadataUnreadable (path : String) (cause : FileError)
  | metadataMalformed (path : String)
  | unlistable (directory : String) (cause : ListingError)
  | nameNotUtf8 (directory : String)
  | artifactUnreadable (path : String) (cause : FileError)
deriving DecidableEq

def Error.message : Error → String
  | .notDirectory directory =>
    s!"host directory '{directory}' does not exist or is not a directory"
  | .metadataUnreadable path cause =>
    Text.withNote cause.message s!"could not read host metadata '{path}'"
  | .metadataMalformed path =>
    Text.withNote "TOML parse error" s!"could not parse host metadata '{path}'"
  | .unlistable directory cause =>
    Text.withNote cause.message s!"could not walk host directory '{directory}'"
  | .nameNotUtf8 directory => s!"non UTF-8 path in '{directory}'"
  | .artifactUnreadable path cause =>
    Text.withNote cause.message s!"could not read artifact '{path}'"

variable {m : Type → Type} [Monad m]

/-- The metadata in a file; where there is no such file, nothing is known. -/
def readMetadata (files : FileAccess m) (path : String) : m (Except Error Metadata) := do
  if ← files.isFile path then
    match ← files.readText path with
    | .error cause => return .error (.metadataUnreadable path cause)
    | .ok text =>
      match Metadata.ofText? text with
      | none => return .error (.metadataMalformed path)
      | some metadata => return .ok metadata
  else return .ok {}

/-- The metadata of a host, named after its directory unless its metadata name it. -/
def loadMetadata (files : FileAccess m) (directory metadataFile : String) :
    m (Except Error Metadata) := do
  match ← readMetadata files (Path.join directory metadataFile) with
  | .error e => return .error e
  | .ok metadata =>
    return .ok { metadata with hostname := metadata.hostname.or (Path.fileName? directory) }

/-- The category of a file with some name, unless it is none of the artifacts. -/
def category? (categories : Dict Category) (metadataFile name : String) : Option Category :=
  if name = metadataFile then none else Dict.get? categories name

/-- The artifacts among the regular files of a directory. Also the name of a file that is none of
them has to be a text. -/
def loadArtifacts (files : FileAccess m) (directory : String) (categories : Dict Category)
    (metadataFile : String) (metadata : Metadata) :
    List FileName → m (Except Error (List Artifact))
  | [] => return .ok []
  | fileName :: rest => do
    match fileName.text? with
    | none => return .error (.nameNotUtf8 directory)
    | some name =>
      match category? categories metadataFile name with
      | none => loadArtifacts files directory categories metadataFile metadata rest
      | some category =>
        let path := Path.join directory name
        match ← files.readText path with
        | .error cause => return .error (.artifactUnreadable path cause)
        | .ok text =>
          match ← loadArtifacts files directory categories metadataFile metadata rest with
          | .error e => return .error e
          | .ok artifacts =>
            let artifact := { Artifact.ofText category text with metadata, path := some path }
            return .ok (artifact :: artifacts)

def load (files : FileAccess m) (directory : String) (categories : Dict Category)
    (metadataFile : String) : m (Except Error HostArtifacts) := do
  if ← files.isDirectory directory then
    match ← loadMetadata files directory metadataFile with
    | .error e => return .error e
    | .ok metadata =>
      match ← files.regularFiles directory with
      | .error cause => return .error (.unlistable directory cause)
      | .ok names =>
        match ← loadArtifacts files directory categories metadataFile metadata
            (FileName.sorted names) with
        | .error e => return .error e
        | .ok artifacts => return .ok ⟨metadata, artifacts⟩
  else return .error (.notDirectory directory)

end HostDirectory

end HostSurvey
