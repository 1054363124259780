import HostSurvey.Text.Numeral

/-!
# Pinned releases

A subscription may be pinned to a release, such as `8.4` or `7Server`. The leading digits of the
release are its major version; digits after a point that follows them are its minor version.
-/

namespace HostSurvey

open Text

/-- The release that a subscription is pinned to. -/
structure PinnedRelease where
  set : String
  major : Option Nat
  minor : Option Nat
deriving DecidableEq

namespace PinnedRelease

def minor? (rest : List Char) : Option Nat :=
  (after? ['.'] rest).bind fun digits => (leadingNumber wordLimit digits).1

/-- The versions of a pinned release. There is no minor version without a major one. -/
def ofSet (set : List Char) : PinnedRelease :=
  let (major, rest) := leadingNumber wordLimit set
  { set := String.ofList set, major, minor := major.bind fun _ => minor? rest }

/-- The text that the first line with a pinned release holds, without blanks around it. -/
def setOf? (lines : List (List Char)) : Option (List Char) :=
  (lines.findSome? fun line => after? "Release:".toList (trim line)).map trim

def ofLines? (lines : List String) : Option PinnedRelease :=
  match setOf? (lines.map String.toList) with
  | none => none
  | some [] => none
  | some set => some (ofSet set)

end PinnedRelease

end HostSurvey
