import HostSurvey.Evaluation.Builtin
import HostSurvey.Files.Access
import HostSurvey.Files.Path
import HostSurvey.Toml.Document

/-!
# Configurations

A configuration lists the files to load from host directories with their categories, names the
metadata file, and disables components. It is read from a TOML file; where no file is given and the
working directory has none, the default configuration is used.
-/

namespace HostSurvey

/-- Which files to load from a host directory, and which components to leave out. -/
structure Config where
  /-- The kinds of the components to leave out. -/
  disabled : List Kind := []
  metadataFile : String := "metadata.toml"
  artifacts : Dict Category := []
deriving DecidableEq

namespace Config

/-- The name of the configuration file in the working directory. -/
def fileName : String := "hostfacts.toml"

def defaultText : String :=
"# hostfacts configuration
#
# Each host is described by a directory of collected artifacts. The files listed
# under [artifacts] are loaded as raw data of the given category; any other file
# in the directory is ignored.

# Components to leave out, named by the fact they produce, e.g. \"performance_profile\".
# A component that another enabled component requires cannot be disabled.
disabled = []

# Optional per-host metadata (hostname, arch, release, ...) in TOML.
metadata_file = \"metadata.toml\"

[artifacts]
\"pmlogsummary\" = \"pm_log_summary\"
\"dmidecode\" = \"dmi_decode\"
\"yum_repolist\" = \"yum_repo_list\"
\"redhat-release\" = \"redhat_release\"
\"uname\" = \"uname\"
\"subscription-manager_release\" = \"rhsm_release\"
"

def default : Config where
  artifacts := Dict.ofList [("pmlogsummary", .performanceLog), ("dmidecode", .inventory),
    ("yum_repolist", .repoTable), ("redhat-release", .releaseStatement),
    ("uname", .kernelIdentity), ("subscription-manager_release", .pinnedRelease)]

/-! ## Reading -/

/-- The kinds that the items of a list name. -/
def kinds? (value : Toml.Value) : Option (List Kind) :=
  value.items?.bind (·.mapM fun item => item.choice?.bind Kind.ofName?)

/-- The categories that the fields of a table name. -/
def categories? (value : Toml.Value) : Option (Dict Category) :=
  value.fields?.bind (·.mapM fun (name, value) =>
    (value.choice?.bind Category.ofName?).map fun category => (name, category))

/-- The configuration after one more field, if there is such a field and it can take the value. -/
def setField (config : Config) (name : String) (value : Toml.Value) : Option Config :=
  match name with
  | "disabled" => (kinds? value).map fun disabled => { config with disabled }
  | "metadata_file" => value.text?.map fun metadataFile => { config with metadataFile }
  | "artifacts" => (categories? value).map fun artifacts => { config with artifacts }
  | _ => none

def ofTable? (table : Toml.Table) : Option Config :=
  table.foldlM (fun config (name, value) => config.setField name value) {}

def ofText? (text : String) : Option Config := (Toml.document? text).bind ofTable?

/-! ## Validation -/

/-- What is wrong with a configuration. -/
inductive Flaw
  | noMetadataFile
  | metadataFileIsArtifact (name : String)
  | artifactNotPlain (name : String)
  | unschedulable (cause : Schedule.Error)
deriving DecidableEq

def Flaw.message : Flaw → String
  | .noMetadataFile => "metadata_file must not be empty"
  | .metadataFileIsArtifact name =>
    s!"'{name}' is configured both as the metadata file and as an artifact"
  | .artifactNotPlain name => s!"artifact name '{name}' must be a plain file name"
  | .unschedulable cause => cause.message

/-- Whether a name is that of a file in the directory itself. -/
def isPlainName (name : String) : Bool :=
  name != "" && !name.toList.contains '/' && !name.toList.contains '\\'

def components (config : Config) : List Component :=
  Component.builtins.filter fun component => !config.disabled.contains component.produces

def schedule (config : Config) : Except Schedule.Error Schedule :=
  Schedule.ofComponents config.components

def flaw? (config : Config) : Option Flaw :=
  if Text.trim config.metadataFile.toList = [] then some .noMetadataFile
  else if Dict.contains config.artifacts config.metadataFile then
    some (.metadataFileIsArtifact config.metadataFile)
  else match (Dict.keys config.artifacts).find? (!isPlainName ·) with
    | some name => some (.artifactNotPlain name)
    | none =>
      match config.schedule with
      | .error cause => some (.unschedulable cause)
      | .ok _ => none

/-! ## Loading -/

/-- Why a configuration cannot be loaded. -/
inductive Error
  | unreadable (path : String) (cause : FileError)
  | malformed (path : String)
  | invalid (path : String) (flaw : Flaw)
deriving DecidableEq

def Error.message : Error → String
  | .unreadable path cause =>
    Text.withNote cause.message s!"reading hostfacts configuration file '{path}'"
  | .malformed path =>
    Text.withNote "TOML parse error" s!"parsing configuration file '{path}'"
  | .invalid path flaw =>
    Text.withNote flaw.message s!"validating configuration file '{path}'"

def ofFile (path text : String) : Except Error Config :=
  match ofText? text with
  | none => .error (.malformed path)
  | some config =>
    match config.flaw? with
    | some flaw => .error (.invalid path flaw)
    | none => .ok config

/-- Loads a given configuration file, or else the one in a directory, which may be missing. -/
def load {m : Type → Type} [Monad m] (files : FileAccess m) (directory : String)
    (given : Option String) : m (Except Error Config) := do
  let path := given.getD (Path.join directory fileName)
  match ← files.readText path with
  | .ok text => return ofFile path text
  | .error cause =>
    if given = none ∧ cause = .notFound then return .ok default
    else return .error (.unreadable path cause)

end Config

end HostSurvey
