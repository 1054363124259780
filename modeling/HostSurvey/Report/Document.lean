import HostSurvey.Fact.Document
import HostSurvey.Json.Printer
import HostSurvey.Report.HostFindings

/-!
# Report documents

A report document lists the hosts. For each of them it holds the facts that were found, the reasons
of absences and the messages of failures, each under the name of its kind. Fields stand in
ascending order of their names.
-/

namespace HostSurvey.Report

def kindsByName : List Kind :=
  [.reading .inventory, .memory, .utilization, .reading .performanceLog,
    .reading .releaseStatement, .distribution, .subscription, .reading .pinnedRelease,
    .reading .kernelIdentity, .reading .repoTable]

def foundField? : Outcome → Option Json
  | .found fact => some fact.toJson
  | _ => none

def absentField? : Outcome → Option Json
  | .absent absence => some (.text absence.message)
  | _ => none

def failedField? : Outcome → Option Json
  | .failed failure => some (.text failure.message)
  | _ => none

/-- The outcomes of which a function makes a value, under the names of their kinds. -/
def fields (findings : Findings) (value? : Outcome → Option Json) : List (String × Json) :=
  kindsByName.filterMap fun kind =>
    ((findings.outcome? kind).bind value?).map fun value => (kind.name, value)

def hostDocument (host : HostFindings) : Json :=
  .object [("absent", .object (fields host.findings absentField?)),
    ("facts", .object (fields host.findings foundField?)),
    ("failed", .object (fields host.findings failedField?)),
    ("host", .text host.host)]

def document (hosts : List HostFindings) : Json :=
  .object [("hosts", .array (hosts.map hostDocument))]

def documentText (hosts : List HostFindings) : String := (document hosts).pretty

/-- The names of the kinds are listed in ascending order, and none is left out. -/
theorem kindsByName_sorted : (kindsByName.map Kind.name).Pairwise (· < ·) := by decide

theorem mem_kindsByName (k : Kind) : k ∈ kindsByName := by
  have key : ∀ k ∈ Kind.all, k ∈ kindsByName := by decide
  exact key k (Kind.mem_all k)

end HostSurvey.Report
