/-!
# Categories of collected data

Every artifact collected from a host holds the output of one command or the content of one file.
Its category says which.
-/

namespace HostSurvey

/-- What kind of data an artifact holds. -/
inductive Category
  /-- The summary of a performance archive. -/
  | performanceLog
  /-- The hardware inventory of the firmware tables. -/
  | inventory
  /-- The table of enabled repositories. -/
  | repoTable
  /-- The release statement of the distribution. -/
  | releaseStatement
  /-- The identity of the running kernel. -/
  | kernelIdentity
  /-- The release that the subscription is pinned to. -/
  | pinnedRelease
deriving DecidableEq, Inhabited

namespace Category

def all : List Category :=
  [performanceLog, inventory, repoTable, releaseStatement, kernelIdentity, pinnedRelease]

/-- The name of a category in configuration files and reports. -/
def name : Category → String
  | performanceLog => "pm_log_summary"
  | inventory => "dmi_decode"
  | repoTable => "yum_repo_list"
  | releaseStatement => "redhat_release"
  | kernelIdentity => "uname"
  | pinnedRelease => "rhsm_release"

def ofName? (s : String) : Option Category := all.find? (·.name == s)

theorem mem_all (c : Category) : c ∈ all := by cases c <;> decide

theorem name_injective {a b : Category} (h : a.name = b.name) : a = b := by
  revert h
  cases a <;> cases b <;> decide

@[simp] theorem ofName?_name (c : Category) : ofName? c.name = some c := by cases c <;> decide

end Category

end HostSurvey
