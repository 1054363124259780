import HostSurvey.Text.Pieces

/-!
# Canonical keys

Titles and labels are compared in a canonical form: their runs of ASCII letters and digits, in
lower case, joined by single underscores. `canonicalKey` computes it in one pass; `runs` lists the
runs themselves.
-/

namespace HostSurvey.Text

/-- Where the pass over a label stands: before its first run, inside a run, or after one. -/
inductive KeyState
  | start
  | inRun
  | afterRun

/-- The canonical form of what is left of a label. -/
def keyFrom : KeyState → List Char → List Char
  | _, [] => []
  | .start, c :: cs => if c.isAlphanum then c.toLower :: keyFrom .inRun cs else keyFrom .start cs
  | .inRun, c :: cs =>
    if c.isAlphanum then c.toLower :: keyFrom .inRun cs else keyFrom .afterRun cs
  | .afterRun, c :: cs =>
    if c.isAlphanum then '_' :: c.toLower :: keyFrom .inRun cs else keyFrom .afterRun cs

def canonicalKey (cs : List Char) : List Char := keyFrom .start cs

/-- The maximal runs of ASCII letters and digits of a label. -/
def runs (cs : List Char) : List (List Char) :=
  (pieces (fun c => !c.isAlphanum) cs).filter (· ≠ [])

end HostSurvey.Text
