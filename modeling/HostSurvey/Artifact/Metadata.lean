import HostSurvey.Calendar.Instant

/-!
# Host metadata

What the collection client reports about the host that an artifact comes from. Every item may be
missing.
-/

namespace HostSurvey

/-- What is known about a host apart from its artifacts. -/
structure Metadata where
  hostname : Option String := none
  machineId : Option String := none
  release : Option String := none
  major : Option Nat := none
  minor : Option Nat := none
  arch : Option String := none
  /-- The product tag that the collection client assigned. -/
  product : Option String := none
  collectedAt : Option Instant := none
deriving DecidableEq, Inhabited

/-- The host name, or `unknown` when the collection client did not report one. -/
def Metadata.hostName (m : Metadata) : String := m.hostname.getD "unknown"

end HostSurvey
