import HostSurvey.Artifact.Basic
import HostSurvey.Derived.InstalledMemory
import HostSurvey.Derived.Subscription
import HostSurvey.Derived.Utilization
import HostSurvey.Fact.Kind
import HostSurvey.Reading.Inventory
import HostSurvey.Reading.KernelIdentity

/-!
# Facts

A fact holds a value of the type that belongs to its kind. The fact of an artifact is what its
lines say in the form of its category.
-/

namespace HostSurvey

/-- A fact about a host. -/
inductive Fact
  | performanceLog (value : PerformanceLog)
  | inventory (value : Inventory)
  | repoTable (value : RepoTable)
  | releaseStatement (value : ReleaseStatement)
  | kernelIdentity (value : KernelIdentity)
  | pinnedRelease (value : PinnedRelease)
  | distribution (value : Distribution)
  | memory (value : InstalledMemory)
  | subscription (value : Subscription)
  | utilization (value : Utilization)

namespace Fact

def kind : Fact → Kind
  | performanceLog _ => .reading .performanceLog
  | inventory _ => .reading .inventory
  | repoTable _ => .reading .repoTable
  | releaseStatement _ => .reading .releaseStatement
  | kernelIdentity _ => .reading .kernelIdentity
  | pinnedRelease _ => .reading .pinnedRelease
  | distribution _ => .distribution
  | memory _ => .memory
  | subscription _ => .subscription
  | utilization _ => .utilization

/-! ## The value of a fact, if it has the kind -/

def performanceLog? : Fact → Option PerformanceLog
  | performanceLog value => some value
  | _ => none

def inventory? : Fact → Option Inventory
  | inventory value => some value
  | _ => none

def repoTable? : Fact → Option RepoTable
  | repoTable value => some value
  | _ => none

def releaseStatement? : Fact → Option ReleaseStatement
  | releaseStatement value => some value
  | _ => none

def kernelIdentity? : Fact → Option KernelIdentity
  | kernelIdentity value => some value
  | _ => none

def pinnedRelease? : Fact → Option PinnedRelease
  | pinnedRelease value => some value
  | _ => none

def distribution? : Fact → Option Distribution
  | distribution value => some value
  | _ => none

def memory? : Fact → Option InstalledMemory
  | memory value => some value
  | _ => none

def subscription? : Fact → Option Subscription
  | subscription value => some value
  | _ => none

def utilization? : Fact → Option Utilization
  | utilization value => some value
  | _ => none

/-! ## Reading artifacts -/

/-- What some lines say in the form of a category. -/
def ofLines? : Category → List String → Option Fact
  | .performanceLog, lines => (PerformanceLog.ofLines? lines).map performanceLog
  | .inventory, lines => (Inventory.ofLines? lines).map inventory
  | .repoTable, lines => (RepoTable.ofLines? lines).map repoTable
  | .releaseStatement, lines => (ReleaseStatement.ofLines? lines).map releaseStatement
  | .kernelIdentity, lines => (KernelIdentity.ofLines? lines).map kernelIdentity
  | .pinnedRelease, lines => (PinnedRelease.ofLines? lines).map pinnedRelease

/-- What an artifact says, or the message that nothing usable was found in it. -/
def ofArtifact (artifact : Artifact) : Except String Fact :=
  match ofLines? artifact.category artifact.lines with
  | none => .error artifact.emptyMessage
  | some fact => .ok fact

theorem kind_of_ofLines? {category : Category} {lines : List String} {fact : Fact}
    (h : ofLines? category lines = some fact) : fact.kind = .reading category := by
  cases category <;> simp only [ofLines?, Option.map_eq_some_iff] at h <;>
    rcases h with ⟨_, _, rfl⟩ <;> rfl

end Fact

end HostSurvey
