import HostSurvey.Dict
import HostSurvey.Number.Reading
import HostSurvey.Text.Pieces

/-!
# Performance logs

A performance log holds readings of performance metrics, one on a line:

    disk.dev.total ["vdc"] 2.339 count / sec

that is, a dotted metric name, an optional qualifier between brackets, a value and a unit. The
segments of the name and the qualifier form the path of the reading in a tree. A reading takes the
place of whatever stands at its path, of readings above it that are in its way, and of everything
below it. Lines of any other shape are passed over.
-/

namespace HostSurvey

open Text

namespace PerformanceLog

/-- The value of a metric: a finite number where it reads as one, and its text otherwise. -/
inductive Value
  | number (value : Number.Double)
  | text (value : String)
deriving DecidableEq

def Value.number? : Value → Option Number.Double
  | .number x => some x
  | .text _ => none

structure Reading where
  value : Value
  unit : String
deriving DecidableEq

/-! ## Lines -/

def isNameChar (c : Char) : Bool := !isBlank c && c != '['

def valueOf (word : List Char) : Value :=
  match Number.Double.ofText? word with
  | some x => .number x
  | none => .text (String.ofList word)

/-- The qualifier between brackets, without blanks and at most one quote at either end. It may
neither be empty nor hold another quote. -/
def qualifier? (content : List Char) : Option (List Char) :=
  let body := trim content
  let opened := if body.head? = some '"' then body.tail else body
  let closed := if opened.getLast? = some '"' then opened.dropLast else opened
  let name := trim closed
  if '"' ∈ closed ∨ name = [] then none else some name

/-- The reading that follows a name and its qualifier: a blank, a word that does not start with a
bracket, and a unit on the same line. -/
def reading? (cs : List Char) : Option Reading :=
  let body := trimStart cs
  let word := body.takeWhile fun c => !isBlank c
  let unit := trimStart (body.dropWhile fun c => !isBlank c)
  if body.length < cs.length ∧ word ≠ [] ∧ word.head? ≠ some '[' ∧ unit ≠ [] ∧ '\n' ∉ unit then
    some ⟨valueOf word, String.ofList (joinWith [' '] (fields unit))⟩
  else none

/-- The qualifier of a line and its reading, from what follows the metric name. -/
def tail? (cs : List Char) : Option (Option (List Char) × Reading) :=
  match trimStart cs with
  | '[' :: body => do
    let (content, rest) ← splitAtFirst? ']' body
    let name ← qualifier? content
    let reading ← reading? rest
    some (some name, reading)
  | _ => (reading? cs).map fun reading => (none, reading)

def line? (line : List Char) : Option (List String × Reading) :=
  let body := trim line
  let segments := pieces (· == '.') (body.takeWhile isNameChar)
  if [] ∈ segments then none
  else (tail? (body.dropWhile isNameChar)).map fun (name, reading) =>
    ((segments ++ name.toList).map String.ofList, reading)

/-! ## The tree -/

/-- A reading, or the nodes below a metric name by their next segment. -/
inductive Node
  | leaf (reading : Reading)
  | branch (children : List (String × Node))

instance : Inhabited Node := ⟨.branch []⟩

def Node.reading? : Node → Option Reading
  | .leaf reading => some reading
  | .branch _ => none

def Node.children? : Node → Option (Dict Node)
  | .leaf _ => none
  | .branch children => some children

/-- The children of the node that may stand at a key; a leaf has none to keep. -/
def childrenAt (nodes : Dict Node) (key : String) : Dict Node :=
  ((Dict.get? nodes key).bind Node.children?).getD []

/-- Puts a reading at a path below some nodes. -/
def place (reading : Reading) : List String → Dict Node → Dict Node
  | [], nodes => nodes
  | [key], nodes => Dict.insert key (.leaf reading) nodes
  | key :: path, nodes =>
    Dict.insert key (.branch (place reading path (childrenAt nodes key))) nodes

def nodeAt? : List String → Dict Node → Option Node
  | [], _ => none
  | [key], nodes => Dict.get? nodes key
  | key :: path, nodes => ((Dict.get? nodes key).bind Node.children?).bind (nodeAt? path)

end PerformanceLog

/-- The readings of a performance log as a tree. -/
structure PerformanceLog where
  roots : Dict PerformanceLog.Node

namespace PerformanceLog

def empty : PerformanceLog := ⟨[]⟩

def insert (log : PerformanceLog) (path : List String) (reading : Reading) : PerformanceLog :=
  ⟨place reading path log.roots⟩

def find? (log : PerformanceLog) (path : List String) : Option Node := nodeAt? path log.roots

/-- The node at a dotted path. -/
def get? (log : PerformanceLog) (path : String) : Option Node :=
  log.find? ((pieces (· == '.') path.toList).map String.ofList)

def readingAt? (log : PerformanceLog) (path : String) : Option Reading :=
  (log.get? path).bind Node.reading?

def number? (log : PerformanceLog) (path : String) : Option Number.Double :=
  (log.readingAt? path).bind (·.value.number?)

def children? (log : PerformanceLog) (path : String) : Option (Dict Node) :=
  (log.get? path).bind Node.children?

/-- The first segments of all paths in ascending order. -/
def groups (log : PerformanceLog) : List String := Dict.keys log.roots

/-- The paths and readings of the lines that hold one, in order. -/
def entries (lines : List String) : List (List String × Reading) :=
  lines.filterMap fun line => line? line.toList

/-- The log of some lines, if at least one of them holds a reading. -/
def ofLines? (lines : List String) : Option PerformanceLog :=
  match entries lines with
  | [] => none
  | found => some (found.foldl (fun log (path, reading) => log.insert path reading) empty)

end PerformanceLog

end HostSurvey
