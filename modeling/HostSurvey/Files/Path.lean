import HostSurvey.Text.Pieces

/-!
# File paths

A path is a text whose steps are separated by slashes. Empty steps and single dots do not lead
anywhere.
-/

namespace HostSurvey.Path

/-- The steps of a path that lead somewhere. -/
def steps (path : String) : List String :=
  ((Text.pieces (· == '/') path.toList).map String.ofList).filter fun s => s ≠ "" ∧ s ≠ "."

def isAbsolute (path : String) : Bool := path.toList.head? = some '/'

/-- The name of the file or directory that a path leads to, unless it ends in a step upwards. -/
def fileName? (path : String) : Option String :=
  match (steps path).getLast? with
  | none => none
  | some step => if step = ".." then none else some step

/-- A path continued by another one. An absolute path starts over. -/
def join (base path : String) : String :=
  if isAbsolute path ∨ base = "" then path
  else if base.toList.getLast? = some '/' then base ++ path
  else base ++ "/" ++ path

end HostSurvey.Path
