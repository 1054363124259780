import HostSurvey.Dict
import HostSurvey.Text.Pieces

/-!
# Repository tables

The table of enabled repositories stands between its header line, which starts with `repo id`, and
its footer, which starts with `repolist:`. The first field of each row is the id of a repository,
possibly with the marks `!` and `*` in front. The ids of the distribution's own repositories start
with `rhel-`; they are also kept without the release and architecture that may follow a slash.
-/

namespace HostSurvey

open Text

/-- The repositories that are enabled on a host. -/
structure RepoTable where
  /-- All ids in the order of the table. -/
  repos : List String
  /-- The ids of the distribution's own repositories, cut at the first slash, in ascending order
  and without repetitions. -/
  rhelRepos : List String
deriving DecidableEq

namespace RepoTable

/-- Whether a line is the header of the table, in any case of ASCII letters. -/
def isHeader (line : List Char) : Bool :=
  "repo id".toList.isPrefixOf ((trim line).map Char.toLower)

def isFooter (line : List Char) : Bool := "repolist:".toList.isPrefixOf (trim line)

/-- The rows of the table: the lines between its header and its footer. -/
def rows (lines : List (List Char)) : List (List Char) :=
  ((lines.dropWhile (!isHeader ·)).drop 1).takeWhile (!isFooter ·)

/-- The id of a row without the marks in front of it. -/
def rowId? (row : List Char) : Option (List Char) :=
  match fields row with
  | [] => none
  | field :: _ =>
    let id := field.dropWhile fun c => c = '!' || c = '*'
    if id = [] then none else some id

/-- The name of one of the distribution's own repositories: its id up to the first slash. -/
def rhelRepo? (id : List Char) : Option (List Char) :=
  if "rhel-".toList.isPrefixOf id then some (id.takeWhile (· ≠ '/')) else none

def ofIds (ids : List (List Char)) : RepoTable where
  repos := ids.map String.ofList
  rhelRepos := Dict.setOf ((ids.filterMap rhelRepo?).map String.ofList)

/-- The table of some lines, if it has at least one row with an id. -/
def ofLines? (lines : List String) : Option RepoTable :=
  match (rows (lines.map String.toList)).filterMap rowId? with
  | [] => none
  | ids => some (ofIds ids)

def isEnabled (table : RepoTable) (repo : String) : Bool := table.rhelRepos.contains repo

end RepoTable

end HostSurvey
