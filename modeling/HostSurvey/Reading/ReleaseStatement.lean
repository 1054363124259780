import HostSurvey.Text.DecimalDigit
import HostSurvey.Text.Numeral

/-!
# Release statements

A distribution states its release on a line of the form

    Red Hat Enterprise Linux release 8.4 (Ootpa)

that is, a product name, the word `release`, a version, and optionally a code name in parentheses.
The product is the shortest text before such a statement.
-/

namespace HostSurvey

open Text

/-- What a distribution states about its release. -/
structure ReleaseStatement where
  product : String
  version : String
  major : Nat
  minor : Option Nat
  codeName : Option String
deriving DecidableEq

namespace ReleaseStatement

/-- The text from the version on, if the text starts with blanks, the word `release`, blanks and a
decimal digit. -/
def fromVersion? (cs : List Char) : Option (List Char) :=
  let word := trimStart cs
  match after? "release".toList word with
  | none => none
  | some rest =>
    let version := trimStart rest
    if word.length < cs.length ∧ version.length < rest.length ∧ version.head?.any isDecimalDigit
    then some version
    else none

/-- The shortest product that a release statement follows, and the text from the version on. -/
def splitProduct? : List Char → Option (List Char × List Char)
  | [] => none
  | c :: cs =>
    if c = '\n' then none
    else match fromVersion? cs with
      | some version => some ([c], version)
      | none => (splitProduct? cs).map fun (product, version) => (c :: product, version)

/-- The groups of decimal digits at the start of a text, with single points between them. -/
def versionOf : List Char → List Char
  | [] => []
  | c :: cs =>
    if isDecimalDigit c ∨ (c = '.' ∧ cs.head?.any isDecimalDigit) then c :: versionOf cs else []

/-- The code name in parentheses, after the rest of the version's word and blanks. -/
def codeName? (cs : List Char) : Option (List Char) :=
  match trimStart (cs.dropWhile fun c => !isBlank c) with
  | '(' :: rest => (splitAtFirst? ')' rest).map (·.1)
  | _ => none

/-- The statement on a line, unless its major version is no number below the limit. -/
def line? (line : List Char) : Option ReleaseStatement := do
  let (product, rest) ← splitProduct? (trim line)
  let version := versionOf rest
  let numbers := (pieces (· == '.') version).map fun group => (readNumeral wordLimit group).toOption
  let major ← numbers.head?.join
  some {
    product := String.ofList product
    version := String.ofList version
    major
    minor := numbers[1]?.join
    codeName := (codeName? (rest.drop version.length)).map String.ofList }

def ofLines? (lines : List String) : Option ReleaseStatement :=
  lines.findSome? fun line => line? line.toList

end ReleaseStatement

end HostSurvey
