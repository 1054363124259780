import HostSurvey.Command.Basic

/-!
# Command lines

A command line is the name of a command, options and operands. The words after the name are first
told apart: a word that starts with a hyphen is an option, and so is the word after an option that
takes a value; a double hyphen ends the options; all other words are operands. The command is then
made of the options, none of which may be given twice, and of the operands in their order.
-/

namespace HostSurvey.Command

/-- The options of the commands. -/
inductive Setting
  | config
  | colour
  | logLevel
  | json
  | console
  | errorIfFailed
deriving DecidableEq

namespace Setting

def name : Setting → String
  | config => "config"
  | colour => "color"
  | logLevel => "log-level"
  | json => "json"
  | console => "console"
  | errorIfFailed => "error-if-failed"

def letter? : Setting → Option Char
  | config => some 'c'
  | _ => none

def takesValue : Setting → Bool
  | console => false
  | errorIfFailed => false
  | _ => true

def ofDerive : List Setting := [config, colour, logLevel, json, console, errorIfFailed]

def ofValidate : List Setting := [config]

end Setting

/-- What is wrong with a command line. -/
inductive UsageError
  | noCommand
  | unknownCommand (name : String)
  | unknownOption (word : String)
  | missingValue (setting : Setting)
  | unexpectedValue (setting : Setting) (value : String)
  | invalidValue (setting : Setting) (value : String)
  | repeatedOption (setting : Setting)
  | noHost
  | unexpectedOperand (word : String)
deriving DecidableEq

def UsageError.message : UsageError → String
  | noCommand => "a command is missing"
  | unknownCommand name => s!"there is no command '{name}'"
  | unknownOption word => s!"unexpected option '{word}'"
  | missingValue setting => s!"the option '--{setting.name}' needs a value"
  | unexpectedValue setting value =>
    s!"the option '--{setting.name}' takes no value, but '{value}' was given"
  | invalidValue setting value => s!"'{value}' is no value of the option '--{setting.name}'"
  | repeatedOption setting => s!"the option '--{setting.name}' is given more than once"
  | noHost => "a host directory is missing"
  | unexpectedOperand word => s!"unexpected argument '{word}'"

/-! ## Words -/

/-- What a word stands for, given the options of the command. -/
inductive Word
  | operand
  /-- The words after it are operands. -/
  | endOfOptions
  /-- An option with the value that it holds, if it holds one. -/
  | setting (setting : Setting) (value : Option String)
  | unknown

/-- Whether a word starts with a hyphen; a single hyphen is an operand. -/
def isHyphenated (word : String) : Bool := word.toList.head? = some '-' && word != "-"

/-- The long form of an option, with a value after an equals sign. -/
def longWord (allowed : List Setting) (body : List Char) : Word :=
  let (name, value) := match Text.splitAtFirst? '=' body with
    | none => (body, none)
    | some (name, value) => (name, some (String.ofList value))
  match allowed.find? fun setting => setting.name.toList = name with
  | none => .unknown
  | some setting => .setting setting value

/-- The short form of an option, with a value right after the letter or after an equals sign. -/
def shortWord (allowed : List Setting) : List Char → Word
  | [] => .operand
  | letter :: value =>
    match allowed.find? fun setting => setting.letter? = some letter with
    | none => .unknown
    | some setting =>
      match value with
      | [] => .setting setting none
      | '=' :: value => .setting setting (some (String.ofList value))
      | value => .setting setting (some (String.ofList value))

def classify (allowed : List Setting) (word : String) : Word :=
  match word.toList with
  | ['-', '-'] => .endOfOptions
  | '-' :: '-' :: body => longWord allowed body
  | '-' :: body => shortWord allowed body
  | _ => .operand

/-- The options of a command line with their values, and the operands. -/
structure Words where
  /-- An option that takes no value has an empty one. -/
  settings : List (Setting × String) := []
  operands : List String := []

def Words.withSetting (words : Words) (setting : Setting) (value : String) : Words :=
  { words with settings := (setting, value) :: words.settings }

def Words.withOperand (words : Words) (word : String) : Words :=
  { words with operands := word :: words.operands }

/-- Tells the options of a command line from its operands. -/
def readWords (allowed : List Setting) : List String → Except UsageError Words
  | [] => .ok {}
  | word :: rest =>
    match classify allowed word with
    | .operand => (readWords allowed rest).map (·.withOperand word)
    | .endOfOptions => .ok { operands := rest }
    | .unknown => .error (.unknownOption word)
    | .setting setting (some value) =>
      if setting.takesValue then (readWords allowed rest).map (·.withSetting setting value)
      else .error (.unexpectedValue setting value)
    | .setting setting none =>
      if setting.takesValue then
        match rest with
        | [] => .error (.missingValue setting)
        | value :: rest =>
          if isHyphenated value then .error (.missingValue setting)
          else (readWords allowed rest).map (·.withSetting setting value)
      else (readWords allowed rest).map (·.withSetting setting "")

namespace Words

def value? (words : Words) (setting : Setting) : Option String :=
  (words.settings.find? fun (given, _) => given = setting).map (·.2)

def has (words : Words) (setting : Setting) : Bool := (words.value? setting).isSome

/-- The first option that is given again after it was given. -/
def repeated? : List (Setting × String) → Option Setting
  | [] => none
  | (setting, _) :: rest =>
    if setting ∈ rest.map (·.1) then some setting else repeated? rest

end Words

/-- The options and operands of a command line, none of the options given twice. -/
def readOnce (allowed : List Setting) (arguments : List String) : Except UsageError Words :=
  match readWords allowed arguments with
  | .error e => .error e
  | .ok words =>
    match Words.repeated? words.settings with
    | some setting => .error (.repeatedOption setting)
    | none => .ok words

/-! ## Commands -/

def logLevels : List String := ["none", "error", "warn", "info", "debug", "trace"]

def colourMode? : String → Option ColourMode
  | "always" => some .always
  | "never" => some .never
  | "auto" => some .automatic
  | _ => none

/-- When to use colours; only on a terminal, unless an option says otherwise. -/
def readColour (words : Words) : Except UsageError ColourMode :=
  match words.value? .colour with
  | none => .ok .automatic
  | some value =>
    match colourMode? value with
    | none => .error (.invalidValue .colour value)
    | some mode => .ok mode

/-- Checks the level of diagnostic messages. There are none to be given, whatever the level. -/
def checkLogLevel (words : Words) : Except UsageError Unit :=
  match words.value? .logLevel with
  | none => .ok ()
  | some value => if value ∈ logLevels then .ok () else .error (.invalidValue .logLevel value)

/-- The command that derives facts, with at least one host directory. -/
def readDerive (arguments : List String) : Except UsageError Command := do
  let words ← readOnce Setting.ofDerive arguments
  let colour ← readColour words
  checkLogLevel words
  if words.operands = [] then .error .noHost
  else .ok (.derive {
    hosts := words.operands
    config := words.value? .config
    colour
    json := words.value? .json
    console := words.has .console
    errorIfFailed := words.has .errorIfFailed })

/-- The command that writes the default configuration, with at most one path. -/
def readInit (arguments : List String) : Except UsageError Command := do
  let words ← readOnce [] arguments
  match words.operands with
  | [] => .ok (.init none)
  | [path] => .ok (.init (some path))
  | _ :: word :: _ => .error (.unexpectedOperand word)

def readValidate (arguments : List String) : Except UsageError Command := do
  let words ← readOnce Setting.ofValidate arguments
  match words.operands with
  | [] => .ok (.validate (words.value? .config))
  | word :: _ => .error (.unexpectedOperand word)

/-- The command of a command line, which does not include the name of the program. -/
def ofArguments : List String → Except UsageError Command
  | [] => .error .noCommand
  | "derive" :: arguments => readDerive arguments
  | "init" :: arguments => readInit arguments
  | "validate" :: arguments => readValidate arguments
  | name :: _ => .error (.unknownCommand name)

end HostSurvey.Command
