import HostSurvey.Report.HostFindings
import HostSurvey.Number.Layout

/-!
# Console reports

A console report has one block for each host, with an empty line between two blocks: the name of
the host, a line for each outcome, and a line with the numbers of facts found, absences and
failures. An outcome is shown by a mark, the name of its kind, and the first line of its detail;
the names of a block are padded to the same width. Colours are escape sequences around the host
names and the marks, and nothing else.
-/

namespace HostSurvey.Console

/-- A number of the report, rounded to some places. -/
def fixed (places : Nat) (x : Number.Double) : String := String.ofList (x.fixedText places)

def subscriptionSummary (subscription : Subscription) : String :=
  let tiers := subscription.base.tiers.map Tier.name
  let names := if tiers = [] then "none" else ", ".intercalate tiers
  let lock := match subscription.lock with
    | none => ""
    | some release => s!", locked to {release}"
  s!"{subscription.baseRepoId} tiers: {names}{lock}"

def utilizationSummary (figures : Utilization) : String :=
  let memory := figures.memory.map fun x => s!"memory {fixed 1 x}%"
  let cpu := figures.cpu.map fun x => s!"cpu {fixed 1 x}%"
  let disks := figures.diskIops.map fun x => s!"{fixed 1 x} IOPS"
  let busiest := figures.busiestDisk.map fun disk =>
    s!"busiest disk {disk.device} ({fixed 1 disk.iops} IOPS)"
  ", ".intercalate ([memory, cpu, disks, busiest].filterMap id)

def summary : Fact → String
  | .performanceLog log => s!"{log.groups.length} metric groups"
  | .inventory inventory => s!"{inventory.memoryDevices.length} memory devices"
  | .repoTable table =>
    s!"{table.repos.length} repositories enabled, {table.rhelRepos.length} from RHEL"
  | .releaseStatement statement => s!"{statement.product} {statement.version}"
  | .kernelIdentity identity =>
    let arch := identity.arch.getD "unknown architecture"
    s!"{identity.kernelRelease} on {arch}"
  | .pinnedRelease pinned => s!"release set to {pinned.set}"
  | .distribution distribution =>
    s!"{distribution.family.name} {distribution.release} on {distribution.arch}"
  | .memory memory => s!"{fixed 2 memory.gigabytes} GB ({memory.megabytes} MB)"
  | .subscription subscription => subscriptionSummary subscription
  | .utilization figures => utilizationSummary figures

def detail : Outcome → String
  | .found fact => summary fact
  | .absent absence => absence.message
  | .failed failure => failure.message

def mark : Outcome → String
  | .found _ => "✔"
  | .absent _ => "–"
  | .failed _ => "✘"

/-! ## Colours -/

def escape (code : String) : String := "\x1b[" ++ code ++ "m"

/-- A text in a rendition that is ended after it. -/
def inRendition (start stop text : String) : String := escape start ++ text ++ escape stop

def colouredMark (outcome : Outcome) : String :=
  match outcome with
  | .found _ => inRendition "32" "39" (mark outcome)
  | .absent _ => inRendition "2" "0" (mark outcome)
  | .failed _ => inRendition "31" "39" (mark outcome)

def bold (text : String) : String := inRendition "1" "0" text

/-! ## The report -/

/-- A text with spaces after it up to a width. -/
def padded (width : Nat) (text : String) : String :=
  text ++ String.ofList (List.replicate (width - text.length) ' ')

def outcomeLine (colours : Bool) (width : Nat) (kind : Kind) (outcome : Outcome) : String :=
  let shown := if colours then colouredMark outcome else mark outcome
  let told := String.ofList (Text.firstLine (detail outcome).toList)
  s!"  {shown} {padded width kind.name} : {told}"

def nameWidth (findings : Findings) : Nat :=
  ((findings.toList.map fun (kind, _) => kind.name.length).max?).getD 0

def countLine (findings : Findings) : String :=
  let found := findings.count Outcome.isFound
  let absent := findings.count Outcome.isAbsent
  let failed := findings.count Outcome.isFailed
  s!"  {found} found, {absent} absent, {failed} failed"

def block (colours : Bool) (host : HostFindings) : List String :=
  let width := nameWidth host.findings
  (if colours then bold host.host else host.host) ::
    host.findings.toList.map (fun (kind, outcome) => outcomeLine colours width kind outcome) ++
    [countLine host.findings]

/-- Lines as a text in which each is ended. -/
def ended (lines : List String) : String := String.join (lines.map (· ++ "\n"))

def report (colours : Bool) (hosts : List HostFindings) : String :=
  "\n".intercalate (hosts.map fun host => ended (block colours host))

end HostSurvey.Console
