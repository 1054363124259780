import HostSurvey.Artifact.Category
import HostSurvey.Artifact.Metadata
import HostSurvey.Text.Pieces

/-!
# Artifacts

An artifact is what was collected from one host in one category: its lines, the metadata of the
host, and the path it was loaded from, if there is one. A text becomes an artifact when the blanks
around it are removed and the rest is cut into lines.
-/

namespace HostSurvey

/-- One collected artifact of a host. -/
structure Artifact where
  category : Category
  lines : List String
  metadata : Metadata := {}
  path : Option String := none
deriving DecidableEq

namespace Artifact

/-- The lines of a text whose surrounding blanks are removed. -/
def linesOfText (text : String) : List String :=
  (Text.lines (Text.trim text.toList)).map String.ofList

def ofText (category : Category) (text : String) : Artifact := ⟨category, linesOfText text, {}, none⟩

/-- How messages name an artifact: by its path, or else by its category. -/
def label (a : Artifact) : String := a.path.getD a.category.name

def emptyMessage (a : Artifact) : String := s!"no usable content in '{a.label}'"

/-- The last artifact of a category in a collection, which is the one that counts. -/
def latest? (artifacts : List Artifact) (category : Category) : Option Artifact :=
  artifacts.reverse.find? (·.category == category)

end Artifact

end HostSurvey
