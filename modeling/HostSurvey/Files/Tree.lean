import HostSurvey.Files.Access
import HostSurvey.Files.Path

/-!
# File trees

A file tree is the content of a working directory as a value: files with their bytes, directories
and links, each at its place, which is the list of names that lead to it. A path is a text and is
followed step by step from the working directory, and links are followed on the way; what stands
under a name that is no text can be listed but not reached. All that lies outside of the working
directory counts as one more directory, in which nothing is known to be.
-/

namespace HostSurvey

/-- What stands at a place. -/
inductive FileEntry
  | file (content : ByteArray)
  | directory
  | link (target : String)

/-- The content of a working directory. -/
structure FileTree where
  entries : List (List FileName × FileEntry)

namespace FileTree

/-- The place that stands for all directories outside of the working directory. -/
def outside : List FileName := [.ofText ".."]

def above (place : List FileName) : List FileName :=
  if place = [] ∨ place = outside then outside else place.dropLast

/-- What stands at a place; the working directory itself is a directory. -/
def get? (tree : FileTree) (place : List FileName) : Option FileEntry :=
  if place = [] ∨ place = outside then some .directory
  else (tree.entries.find? (·.1 == place)).map (·.2)

def put (tree : FileTree) (place : List FileName) (entry : FileEntry) : FileTree :=
  ⟨tree.entries.filter (·.1 != place) ++ [(place, entry)]⟩

/-- The steps of a path, among them the dots that stand for the directory reached so far; a slash at
the end is an empty step. -/
def walkSteps (path : String) : List String :=
  let steps := ((Text.pieces (· == '/') path.toList).map String.ofList).filter (· ≠ "")
  if path.toList.getLast? = some '/' then steps ++ [""] else steps

/-- What a path is followed for. -/
inductive Purpose
  | reading
  /-- A file is created at the end of the path if there is none. -/
  | writing
deriving DecidableEq

/-- The greatest length of a name in bytes. -/
def nameLimit : Nat := 255

/-- The greatest length of a path in bytes. -/
def pathLimit : Nat := 4095

/-- The directory that a path starts from, given the one that relative paths start from. -/
def startOf (place : List FileName) (path : String) : List FileName :=
  if Path.isAbsolute path then outside else place

/-- The place that steps from a directory lead to, with a bound on the links on the way. Something
has to stand at every place but the last. A file is not created at a name that ends in a slash, and
what stands there is not looked at. -/
def walk (tree : FileTree) (purpose : Purpose) (links : Nat) (place : List FileName)
    (steps : List String) : Except FileError (List FileName) :=
  match steps with
  | [] => .ok place
  | step :: rest =>
    if step = "" ∨ step = "." then walk tree purpose links place rest
    else if step = ".." then walk tree purpose links (above place) rest
    else if purpose = .writing ∧ rest = [""] then .error .isDirectory
    else if nameLimit < step.utf8ByteSize then .error .nameTooLong
    else match tree.get? (place ++ [.ofText step]) with
      | none => if rest = [] then .ok (place ++ [.ofText step]) else .error .notFound
      | some .directory => walk tree purpose links (place ++ [.ofText step]) rest
      | some (.file _) => if rest = [] then .ok (place ++ [.ofText step]) else .error .notDirectory
      | some (.link target) =>
        match links with
        | 0 => .error .tooManyLinks
        | links + 1 =>
          if target = "" then .error .notFound
          else walk tree purpose links (startOf place target) (walkSteps target ++ rest)
termination_by (links, steps.length)

/-- How many links may be followed on the way of a path. -/
def linkLimit : Nat := 40

/-- The place that a path leads to, at which nothing has to stand. -/
def locate (tree : FileTree) (purpose : Purpose) (path : String) :
    Except FileError (List FileName) :=
  if '\x00' ∈ path.toList then .error .nulInName
  else if path = "" then .error .notFound
  else if pathLimit < path.utf8ByteSize then .error .nameTooLong
  else walk tree purpose linkLimit (startOf [] path) (walkSteps path)

def lookup (tree : FileTree) (path : String) : Except FileError FileEntry :=
  match tree.locate .reading path with
  | .error e => .error e
  | .ok place =>
    match tree.get? place with
    | none => .error .notFound
    | some entry => .ok entry

def readText (tree : FileTree) (path : String) : Except FileError String :=
  match tree.lookup path with
  | .error e => .error e
  | .ok (.file content) =>
    match String.fromUTF8? content with
    | none => .error .notUtf8
    | some text => .ok text
  | .ok .directory => .error .isDirectory
  | .ok (.link _) => .error .tooManyLinks

def isDirectory (tree : FileTree) (path : String) : Bool :=
  match tree.lookup path with
  | .ok .directory => true
  | _ => false

def isFile (tree : FileTree) (path : String) : Bool :=
  match tree.lookup path with
  | .ok (.file _) => true
  | _ => false

/-- The names of the regular files directly inside a place. -/
def filesAt (tree : FileTree) (place : List FileName) : List FileName :=
  tree.entries.filterMap fun (at_, entry) =>
    match entry with
    | .file _ => if at_.dropLast = place then at_.getLast? else none
    | _ => none

def regularFiles (tree : FileTree) (path : String) : Except ListingError (List FileName) :=
  match tree.locate .reading path with
  | .error cause => .error ⟨some path, cause⟩
  | .ok place =>
    match tree.get? place with
    | none => .error ⟨some path, .notFound⟩
    | some _ => .ok (tree.filesAt place)

def writeText (tree : FileTree) (path text : String) : Except FileError FileTree :=
  match tree.locate .writing path with
  | .error e => .error e
  | .ok place =>
    match tree.get? place with
    | some .directory => .error .isDirectory
    | _ => .ok (tree.put place (.file text.toUTF8))

/-- The operations on files as operations on a tree. -/
def access : FileAccess (StateM FileTree) where
  readText path := do return (← get).readText path
  isDirectory path := do return (← get).isDirectory path
  isFile path := do return (← get).isFile path
  regularFiles path := do return (← get).regularFiles path
  writeText path text := do
    match (← get).writeText path text with
    | .error e => return .error e
    | .ok tree => set tree; return .ok ()

end FileTree

end HostSurvey
