import HostSurvey.Fact.Basic
import HostSurvey.Json.Basic

/-!
# Facts as documents

The JSON form of facts. The fields of every object stand in ascending order of their names. A
metric is an object with its unit and its value, which no branch of the tree can be taken for: the
values of a branch are objects, and those of a metric are not.
-/

namespace HostSurvey

def Json.wholeOrNull : Option Nat → Json := Json.ofOption .whole

def Json.textOrNull : Option String → Json := Json.ofOption .text

def Json.realOrNull : Option Number.Double → Json := Json.ofOption .real

namespace PerformanceLog

def Value.toJson : Value → Json
  | .number x => .real x
  | .text s => .text s

def Reading.toJson (reading : Reading) : Json :=
  .object [("unit", .text reading.unit), ("value", reading.value.toJson)]

mutual

def Node.toJson : Node → Json
  | .leaf reading => reading.toJson
  | .branch children => .object (childrenToJson children)

def childrenToJson : List (String × Node) → List (String × Json)
  | [] => []
  | (key, node) :: rest => (key, node.toJson) :: childrenToJson rest

end

def toJson (log : PerformanceLog) : Json := .object (childrenToJson log.roots)

end PerformanceLog

def InventorySection.toJson (entries : InventorySection) : Json :=
  .object (entries.map fun (key, value) => (key, .text value))

def Inventory.toJson (inventory : Inventory) : Json :=
  .object (inventory.sections.map fun (title, sections) =>
    (title, .array (sections.map InventorySection.toJson)))

def RepoTable.toJson (table : RepoTable) : Json :=
  .object [("repos", .texts table.repos), ("rhel_repos", .texts table.rhelRepos)]

def ReleaseStatement.toJson (statement : ReleaseStatement) : Json :=
  .object [("code_name", .textOrNull statement.codeName), ("major", .whole statement.major),
    ("minor", .wholeOrNull statement.minor), ("product", .text statement.product),
    ("version", .text statement.version)]

def KernelIdentity.toJson (identity : KernelIdentity) : Json :=
  .object [("arch", .textOrNull identity.arch), ("kernel_name", .text identity.kernelName),
    ("kernel_release", .text identity.kernelRelease), ("nodename", .text identity.nodeName)]

def PinnedRelease.toJson (pinned : PinnedRelease) : Json :=
  .object [("major", .wholeOrNull pinned.major), ("minor", .wholeOrNull pinned.minor),
    ("set", .text pinned.set)]

def Distribution.toJson (distribution : Distribution) : Json :=
  .object [("arch", .text distribution.arch), ("family", .text distribution.family.name),
    ("major", .whole distribution.major), ("minor", .wholeOrNull distribution.minor),
    ("release", .text distribution.release)]

def InstalledMemory.toJson (memory : InstalledMemory) : Json :=
  .object [("bytes", .whole memory.bytes), ("gigabytes", .real memory.gigabytes),
    ("kilobytes", .whole memory.kilobytes), ("megabytes", .whole memory.megabytes)]

def TierFlags.toJson (flags : TierFlags) : Json :=
  .object [("aus", .bool flags.aus), ("base", .bool flags.base), ("e4s", .bool flags.e4s),
    ("els", .bool flags.els), ("eus", .bool flags.eus), ("tus", .bool flags.tus)]

def Subscription.toJson (subscription : Subscription) : Json :=
  .object [("appstream", subscription.appstream.toJson),
    ("appstream_repo_id", .textOrNull subscription.appstreamRepoId),
    ("base", subscription.base.toJson),
    ("base_repo_id", .text subscription.baseRepoId),
    ("is_major_locked", .bool subscription.isMajorLocked),
    ("is_minor_locked", .bool subscription.isMinorLocked),
    ("lock", .textOrNull subscription.lock),
    ("lock_major", .wholeOrNull subscription.lockMajor),
    ("lock_minor", .wholeOrNull subscription.lockMinor),
    ("rhel", .text subscription.rhel),
    ("rhel_major", .whole subscription.rhelMajor),
    ("rhel_minor", .wholeOrNull subscription.rhelMinor),
    ("rhel_repos", .texts subscription.rhelRepos)]

def DiskLoad.toJson (load : DiskLoad) : Json :=
  .object [("device", .text load.device), ("iops", .real load.iops)]

def Utilization.toJson (utilization : Utilization) : Json :=
  .object [("busiest_disk", .ofOption DiskLoad.toJson utilization.busiestDisk),
    ("cpu_utilization_pct", .realOrNull utilization.cpu),
    ("disk_iops", .realOrNull utilization.diskIops),
    ("memory_utilization_pct", .realOrNull utilization.memory)]

/-- A fact as a document, without its kind. -/
def Fact.toJson : Fact → Json
  | performanceLog value => value.toJson
  | inventory value => value.toJson
  | repoTable value => value.toJson
  | releaseStatement value => value.toJson
  | kernelIdentity value => value.toJson
  | pinnedRelease value => value.toJson
  | distribution value => value.toJson
  | memory value => value.toJson
  | subscription value => value.toJson
  | utilization value => value.toJson

end HostSurvey
