import HostSurvey.Config
import HostSurvey.HostDirectory
import HostSurvey.Report.Console
import HostSurvey.Report.Document

/-!
# Commands

There are three commands: deriving and reporting the facts of hosts, writing the default
configuration, and validating a configuration. What a command does is a function on files; its
transcript holds what it prints, the exit status it asks for, and whether it ended well.
-/

namespace HostSurvey

/-- When to use colours. -/
inductive ColourMode
  | always
  | never
  /-- Only on a terminal. -/
  | automatic
deriving DecidableEq

/-- Whether to use colours, given whether the output is a terminal. -/
def ColourMode.applies (terminal : Bool) : ColourMode → Bool
  | always => true
  | never => false
  | automatic => terminal

/-- What to derive and how to report it. -/
structure DeriveOptions where
  hosts : List String
  config : Option String := none
  colour : ColourMode := .automatic
  /-- The file that the report document is written to. -/
  json : Option String := none
  /-- Report to the console even when a document is written. -/
  console : Bool := false
  errorIfFailed : Bool := false
deriving DecidableEq

/-- A command with its arguments. -/
inductive Command
  | derive (options : DeriveOptions)
  | init (path : Option String)
  | validate (config : Option String)
deriving DecidableEq

namespace Command

/-- Why a command did not end well. -/
inductive Error
  | config (cause : Config.Error)
  | schedule (cause : Schedule.Error)
  | defaultUnwritable (path : String) (cause : FileError)
  | reportUnwritable (path : String) (cause : FileError)
deriving DecidableEq

def Error.message : Error → String
  | .config cause => cause.message
  | .schedule cause => cause.message
  | .defaultUnwritable path cause =>
    Text.withNote cause.message s!"writing default configuration to {path}"
  | .reportUnwritable path cause =>
    Text.withNote cause.message s!"writing JSON report to '{path}'"

/-- What came of a command. -/
structure Transcript where
  stdout : String := ""
  stderr : String := ""
  /-- The exit status that the command asked for. -/
  exit : Option Nat := none
  result : Except Error Unit := .ok ()

variable {m : Type → Type} [Monad m]

/-- Loads a configuration and the schedule of its components. -/
def loadSchedule (files : FileAccess m) (given : Option String) :
    m (Except Error (Config × Schedule)) := do
  match ← Config.load files "." given with
  | .error cause => return .error (.config cause)
  | .ok config =>
    match config.schedule with
    | .error cause => return .error (.schedule cause)
    | .ok schedule => return .ok (config, schedule)

/-! ## Deriving facts -/

/-- The findings of the host whose artifacts stand in a directory. -/
def surveyHost (files : FileAccess m) (config : Config) (schedule : Schedule)
    (directory : String) : m (Except HostDirectory.Error HostFindings) := do
  match ← HostDirectory.load files directory config.artifacts config.metadataFile with
  | .error e => return .error e
  | .ok host => return .ok ⟨host.metadata.hostName, (schedule.run host.artifacts).findings⟩

/-- The findings of several hosts, each with the directory it was looked for in. -/
def surveyHosts (files : FileAccess m) (config : Config) (schedule : Schedule) :
    List String → m (List (String × Except HostDirectory.Error HostFindings))
  | [] => return []
  | directory :: rest => do
    let host ← surveyHost files config schedule directory
    let others ← surveyHosts files config schedule rest
    return (directory, host) :: others

def loadedHosts (surveyed : List (String × Except HostDirectory.Error HostFindings)) :
    List HostFindings :=
  surveyed.filterMap fun (_, host) => host.toOption

def unloadedMessage : String × Except HostDirectory.Error HostFindings → Option String
  | (_, .ok _) => none
  | (directory, .error e) =>
    some s!"Could not process host directory '{directory}': {e.message}\n"

/-- Whether a directory could not be loaded or a component failed. -/
def anyFailed (surveyed : List (String × Except HostDirectory.Error HostFindings)) : Bool :=
  surveyed.any fun (_, host) =>
    match host with
    | .error _ => true
    | .ok host => 0 < host.findings.count Outcome.isFailed

def writeDocument (files : FileAccess m) (path : Option String) (hosts : List HostFindings) :
    m (Except Error Unit) := do
  match path with
  | none => return .ok ()
  | some path =>
    match ← files.writeText path (Report.documentText hosts) with
    | .error cause => return .error (.reportUnwritable path cause)
    | .ok () => return .ok ()

def runDerive (files : FileAccess m) (terminal : Bool) (options : DeriveOptions) :
    m Transcript := do
  match ← loadSchedule files options.config with
  | .error e => return { result := .error e }
  | .ok (config, schedule) =>
    let surveyed ← surveyHosts files config schedule options.hosts
    let hosts := loadedHosts surveyed
    let stderr := String.join (surveyed.filterMap unloadedMessage)
    let stdout :=
      if options.console ∨ options.json = none then
        Console.report (options.colour.applies terminal) hosts
      else ""
    match ← writeDocument files options.json hosts with
    | .error e => return { stdout, stderr, result := .error e }
    | .ok () =>
      let exit := if options.errorIfFailed ∧ anyFailed surveyed then some 1 else none
      return { stdout, stderr, exit }

/-! ## Configuration files -/

def runInit (files : FileAccess m) (given : Option String) : m Transcript := do
  let path := given.getD Config.fileName
  match ← files.writeText path Config.defaultText with
  | .error cause => return { result := .error (.defaultUnwritable path cause) }
  | .ok () => return { stdout := s!"Generated default configuration file: {path}\n" }

def componentLine (component : Component) : String :=
  s!"  {Console.padded 20 component.name} {component.description}\n"

def validText (given : Option String) (schedule : Schedule) : String :=
  let source := match given with
    | some path => s!"Config file: {path}\n"
    | none => "Using default configuration (no config file given)\n"
  "Configuration file is valid\n" ++ source ++ "Enabled components, in execution order:\n" ++
    String.join (schedule.components.map componentLine)

def runValidate (files : FileAccess m) (given : Option String) : m Transcript := do
  match ← loadSchedule files given with
  | .ok (_, schedule) => return { stdout := validText given schedule }
  | .error e =>
    return {
      stderr := s!"❌ Configuration validation failed: {e.message}\n"
      exit := some 1
      result := .error e }

def run (files : FileAccess m) (terminal : Bool) : Command → m Transcript
  | .derive options => runDerive files terminal options
  | .init path => runInit files path
  | .validate config => runValidate files config

end Command

end HostSurvey
