import HostSurvey.Evaluation.Run

/-!
# The built-in components

One component for each category reads the artifact of that category and abstains when nothing
usable is found in it. Four more derive the installed memory, the distribution, the subscription
and the utilization of the host.
-/

namespace HostSurvey.Component

/-- What an artifact says, or else an abstention with the message that it says nothing. -/
def readingOf (inputs : Inputs) (category : Category) : Except Fault Derivation := do
  let artifact ← inputs.artifact category
  match Fact.ofLines? category artifact.lines with
  | none => .ok (.abstained artifact.emptyMessage)
  | some fact => .ok (.produced fact)

def readingDescription : Category → String
  | .performanceLog => "Performance counters summarized by pmlogsummary"
  | .inventory => "Hardware inventory reported by dmidecode"
  | .repoTable => "Repositories enabled on the host"
  | .releaseStatement => "Distribution release from /etc/redhat-release"
  | .kernelIdentity => "Kernel release and machine architecture from uname -a"
  | .pinnedRelease => "Release pinned with subscription-manager"

/-- The component that reads the artifacts of a category. -/
def reading (category : Category) : Component where
  produces := .reading category
  description := readingDescription category
  requires := [.artifact category]
  optional := []
  derive := fun inputs => readingOf inputs category

/-- The sizes that the memory modules of an inventory report. -/
def moduleSizes (inventory : Inventory) : List String :=
  inventory.memoryDevices.filterMap fun device => Dict.get? device "size"

def memory : Component where
  produces := .memory
  description :=
    "Total installed memory summed over the memory modules reported by dmidecode"
  requires := [.fact (.reading .inventory)]
  optional := []
  derive := fun inputs => do
    let inventory ← inputs.fact (.reading .inventory) Fact.inventory?
    match InstalledMemory.ofSizes (moduleSizes inventory) with
    | .error cause => .error (.memory cause)
    | .ok none => .ok (.abstained "no memory module with a recognized size")
    | .ok (some size) => .ok (.produced (.memory size))

/-- The architecture that the kernel reports, or else the one in the metadata of the release
statement. -/
def archOf? (inputs : Inputs) : Option String :=
  ((inputs.fact? (.reading .kernelIdentity) Fact.kernelIdentity?).bind (·.arch)).or
    ((inputs.artifact? .releaseStatement).bind (·.metadata.arch))

def distribution : Component where
  produces := .distribution
  description := "Distribution family, release and architecture of the host"
  requires := [.fact (.reading .releaseStatement)]
  optional := [.fact (.reading .kernelIdentity), .artifact .releaseStatement]
  derive := fun inputs => do
    let statement ← inputs.fact (.reading .releaseStatement) Fact.releaseStatement?
    match archOf? inputs with
    | none => .ok (.abstained "architecture is unknown")
    | some arch => .ok (.produced (.distribution (Distribution.ofStatement statement arch)))

def unnamedMessage (distribution : Distribution) : String :=
  s!"no repository naming for {distribution.family.name} {distribution.major} on {distribution.arch}"

def subscription : Component where
  produces := .subscription
  description := "RHEL subscription tiers inferred from the enabled repositories"
  requires := [.fact .distribution, .fact (.reading .repoTable)]
  optional := [.fact (.reading .pinnedRelease)]
  derive := fun inputs => do
    let distribution ← inputs.fact .distribution Fact.distribution?
    let table ← inputs.fact (.reading .repoTable) Fact.repoTable?
    let pinned := inputs.fact? (.reading .pinnedRelease) Fact.pinnedRelease?
    match Subscription.classify? distribution table pinned with
    | none => .ok (.abstained (unnamedMessage distribution))
    | some subscription => .ok (.produced (.subscription subscription))

def utilization : Component where
  produces := .utilization
  description := "Memory, CPU and disk utilization summarized from pmlogsummary"
  requires := [.fact (.reading .performanceLog)]
  optional := []
  derive := fun inputs => do
    let log ← inputs.fact (.reading .performanceLog) Fact.performanceLog?
    match Utilization.ofLog? log with
    | none => .ok (.abstained "no utilization metrics in the performance log")
    | some figures => .ok (.produced (.utilization figures))

def builtin : Kind → Component
  | .reading category => reading category
  | .distribution => distribution
  | .memory => memory
  | .subscription => subscription
  | .utilization => utilization

def builtins : List Component :=
  Category.all.map reading ++ [memory, distribution, subscription, utilization]

end HostSurvey.Component
