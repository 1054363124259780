import HostSurvey.Evaluation.Outcome

/-!
# Findings by host

Reports are made of hosts with their findings, in the order in which the hosts were given.
-/

namespace HostSurvey

/-- The findings of one host. -/
structure HostFindings where
  host : String
  findings : Findings

end HostSurvey
