import HostSurvey.Toml.Text
import HostSurvey.Toml.Value

/-!
# Reading TOML documents

A document is a sequence of lines: headers that name a table, or one more table of a list, and
fields, which belong to the table that was named last. Comments and line breaks may stand between
them, and within the brackets of lists and the braces of tables before and after every value, comma
and equals sign. A dotted name stands on one line.
-/

namespace HostSurvey.Toml

open Text

/-! ## Gaps -/

def skipSpaces (cs : List Char) : List Char := cs.dropWhile isSpace

/-- What follows a comment, up to the end of its line, if one starts here. -/
def skipComment : List Char → List Char
  | '#' :: rest => rest.dropWhile isPlain
  | cs => cs

/-- What follows the end of a line, after spaces and a comment. -/
def endOfLine? (cs : List Char) : Option (List Char) :=
  match skipComment (skipSpaces cs) with
  | [] => some []
  | '\n' :: rest => some rest
  | '\r' :: '\n' :: rest => some rest
  | _ => none

/-- An input without the spaces, comments and line breaks at its start. The steps bound the number
of comments and line breaks. -/
def skipGaps : Nat → List Char → List Char
  | 0, cs => cs
  | steps + 1, cs =>
    match skipComment (skipSpaces cs) with
    | '\n' :: rest => skipGaps steps rest
    | '\r' :: '\n' :: rest => skipGaps steps rest
    | rest => rest

/-! ## Names -/

def isBare (c : Char) : Bool := c.isAlphanum || c == '-' || c == '_'

/-- The name at the start of an input, and what follows it. -/
def name? (cs : List Char) : Option (String × List Char) :=
  let bare := cs.takeWhile isBare
  if bare ≠ [] then some (String.ofList bare, cs.dropWhile isBare)
  else (lineText? cs).map fun (text, rest) => (String.ofList text, rest)

/-- The dotted name at the start of an input, and what follows it and the spaces after it. The
steps bound the number of names. -/
def dottedName? : Nat → List Char → Option (List String × List Char)
  | 0, _ => none
  | steps + 1, cs =>
    match name? (skipSpaces cs) with
    | none => none
    | some (name, rest) =>
      match skipSpaces rest with
      | '.' :: rest => (dottedName? steps rest).map fun (names, rest) => (name :: names, rest)
      | rest => some ([name], rest)

/-! ## Numbers -/

/-- The digits of a number with a base, between which single underscores may stand. -/
def groupedDigits? (isDigit : Char → Bool) (cs : List Char) : Option (List Char) :=
  let groups := pieces (· == '_') cs
  if groups.all fun group => group ≠ [] && group.all isDigit then some groups.flatten else none

def inBase (base : Nat) (digits : List Char) : Nat :=
  digits.foldl (fun n c => n * base + (hexValue? c).getD 0) 0

/-- The whole number that decimal digits stand for; a number of several digits does not start with
a zero. -/
def decimal? (cs : List Char) : Option Nat :=
  (groupedDigits? Char.isDigit cs).bind fun digits =>
    if 1 < digits.length ∧ digits.head? = some '0' then none else some (inBase 10 digits)

/-- The number that a word stands for: decimal with an optional sign, or with a base. -/
def integer? : List Char → Option Int
  | '0' :: 'x' :: digits =>
    (groupedDigits? (fun c => (hexValue? c).isSome) digits).map fun d => (inBase 16 d : Int)
  | '0' :: 'o' :: digits =>
    (groupedDigits? (fun c => '0' ≤ c && c ≤ '7') digits).map fun d => (inBase 8 d : Int)
  | '0' :: 'b' :: digits =>
    (groupedDigits? (fun c => c == '0' || c == '1') digits).map fun d => (inBase 2 d : Int)
  | '+' :: digits => (decimal? digits).map fun n => (n : Int)
  | '-' :: digits => (decimal? digits).map fun n => -(n : Int)
  | digits => (decimal? digits).map fun n => (n : Int)

def isWordChar (c : Char) : Bool := isBare c || c == '+' || c == '.' || c == ':'

/-! ## Values -/

mutual

/-- The value at the start of an input, and what follows it. The steps bound the nesting and the
number of items. -/
def value? : Nat → List Char → Option (Value × List Char)
  | 0, _ => none
  | steps + 1, cs =>
    match cs with
    | '[' :: rest => (items? steps rest).map fun (items, rest) => (.array items, rest)
    | '{' :: rest => (fields? steps rest []).map fun (fields, rest) => (.table .braces fields, rest)
    | _ =>
      match text? cs with
      | some (text, rest) => some (.text (String.ofList text), rest)
      | none =>
        (integer? (cs.takeWhile isWordChar)).map fun n => (.integer n, cs.dropWhile isWordChar)

/-- The items of a list up to its closing bracket, and what follows it. -/
def items? : Nat → List Char → Option (List Value × List Char)
  | 0, _ => none
  | steps + 1, cs =>
    match skipGaps cs.length cs with
    | ']' :: rest => some ([], rest)
    | body =>
      match value? steps body with
      | none => none
      | some (item, rest) =>
        match skipGaps rest.length rest with
        | ',' :: rest => (items? steps rest).map fun (items, rest) => (item :: items, rest)
        | ']' :: rest => some ([item], rest)
        | _ => none

/-- The fields of a table up to its closing brace, added to those before them, and what follows. -/
def fields? : Nat → List Char → Table → Option (Table × List Char)
  | 0, _, _ => none
  | steps + 1, cs, fields =>
    match skipGaps cs.length cs with
    | '}' :: rest => some (fields, rest)
    | body =>
      match dottedName? body.length body with
      | none => none
      | some (names, rest) =>
        match skipGaps rest.length rest with
        | '=' :: rest =>
          match value? steps (skipGaps rest.length rest) with
          | none => none
          | some (value, rest) =>
            match assign names value fields with
            | none => none
            | some fields =>
              match skipGaps rest.length rest with
              | ',' :: rest => fields? steps rest fields
              | '}' :: rest => some (fields, rest)
              | _ => none
        | _ => none

end

/-! ## Documents -/

/-- What a line of a document says. -/
inductive Line
  | nothing
  | header (path : List String)
  | listHeader (path : List String)
  | field (path : List String) (value : Value)

/-- The first line of an input and what follows it; a field may go on over several lines. -/
def line? (cs : List Char) : Option (Line × List Char) :=
  match skipSpaces cs with
  | '[' :: '[' :: body =>
    match dottedName? body.length body with
    | some (path, ']' :: ']' :: rest) =>
      (endOfLine? rest).map fun rest => (.listHeader path, rest)
    | _ => none
  | '[' :: body =>
    match dottedName? body.length body with
    | some (path, ']' :: rest) => (endOfLine? rest).map fun rest => (.header path, rest)
    | _ => none
  | body =>
    match endOfLine? body with
    | some rest => some (.nothing, rest)
    | none =>
      match dottedName? body.length body with
      | some (path, '=' :: rest) =>
        match value? (2 * rest.length + 1) (skipSpaces rest) with
        | none => none
        | some (value, rest) => (endOfLine? rest).map fun rest => (.field path value, rest)
      | _ => none

/-- What has been read of a document: its tables, and the path of the table named last. -/
structure Progress where
  root : Table := []
  current : List String := []

def Progress.read (progress : Progress) : Line → Option Progress
  | .nothing => some progress
  | .header path => (atLast false openTable path progress.root).map fun root => ⟨root, path⟩
  | .listHeader path => (atLast false pushTable path progress.root).map fun root => ⟨root, path⟩
  | .field path value =>
    (within false (assign path value) progress.current progress.root).map fun root =>
      { progress with root }

/-- Reads the lines of an input. The steps bound their number. -/
def readLines? : Nat → List Char → Progress → Option Table
  | _, [], progress => some progress.root
  | 0, _ :: _, _ => none
  | steps + 1, cs, progress =>
    match line? cs with
    | none => none
    | some (line, rest) =>
      match progress.read line with
      | none => none
      | some progress => readLines? steps rest progress

/-- The table that a document stands for. A byte order mark in front of it does not count. -/
def document? (text : String) : Option Table :=
  let cs := text.toList
  let body := (after? ['\ufeff'] cs).getD cs
  readLines? body.length body {}

end HostSurvey.Toml
