import HostSurvey.Reading.PerformanceLog

/-!
# Utilization

Four figures are drawn from a performance log: the share of the memory and of the processors in
use, the operations of all disks, and the busiest disk. Each is missing when a metric that it needs
is not a number; shares are percentages between zero and one hundred.
-/

namespace HostSurvey

open Number

/-- The load of one disk. -/
structure DiskLoad where
  device : String
  iops : Double
deriving DecidableEq

/-- The utilization of a host over the logged interval. -/
structure Utilization where
  /-- The share of the memory in use. -/
  memory : Option Double
  /-- The share of the processors in use. -/
  cpu : Option Double
  /-- Operations per second of all disks. -/
  diskIops : Option Double
  busiestDisk : Option DiskLoad
deriving DecidableEq

namespace Utilization

def share (part whole : Double) : Double :=
  Double.clampPercentage (part.toFloat / whole.toFloat * 100)

/-- The rest of a whole in percent, where a part of it is idle. -/
def busyShare (idle whole : Double) : Double :=
  Double.clampPercentage (100 * (1 - idle.toFloat / whole.toFloat))

def memoryShare? (log : PerformanceLog) : Option Double := do
  let used ← log.number? "mem.util.used"
  let all ← log.number? "mem.physmem"
  if all.isPositive then some (share used all) else none

/-- The share of the processors in use; the idle time is that of all processors together. -/
def cpuShare? (log : PerformanceLog) : Option Double := do
  let idle ← log.number? "kernel.all.cpu.idle"
  let count ← log.number? "hinv.ncpu"
  if count.isPositive then some (busyShare idle count) else none

/-- The disks whose operations are a number, in ascending order of their names. -/
def diskLoads (log : PerformanceLog) : List DiskLoad :=
  ((log.children? "disk.dev.total").getD []).filterMap fun (device, node) =>
    (node.reading?.bind (·.value.number?)).map fun iops => ⟨device, iops⟩

/-- The busier of two disks, in the total order of doubles; the second one if they are equal. -/
def busier (a b : DiskLoad) : DiskLoad := if a.iops.rank ≤ b.iops.rank then b else a

def busiest? : List DiskLoad → Option DiskLoad
  | [] => none
  | first :: rest => some (rest.foldl busier first)

/-- The utilization that a log shows, if it shows any of the figures. -/
def ofLog? (log : PerformanceLog) : Option Utilization :=
  let figures : Utilization := {
    memory := memoryShare? log
    cpu := cpuShare? log
    diskIops := log.number? "disk.all.total"
    busiestDisk := busiest? (diskLoads log) }
  if figures = ⟨none, none, none, none⟩ then none else some figures

end Utilization

end HostSurvey
