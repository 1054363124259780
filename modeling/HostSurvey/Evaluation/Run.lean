import HostSurvey.Evaluation.Schedule

/-!
# Runs

A run evaluates the components of a schedule for one host, in order, each against the findings so
far. Of several artifacts of a category the last one counts. Beside the findings a run keeps which
derivations were invoked, and what they saw.
-/

namespace HostSurvey

structure Invocation where
  component : Component
  inputs : Inputs

/-- What a run has come to. -/
structure Run where
  findings : Findings := .empty
  /-- The derivations that were invoked, in order. -/
  invocations : List Invocation := []

namespace Run

/-- The invocation of a component, if nothing stands in its way. -/
def invocation? (artifacts : Category → Option Artifact) (findings : Findings)
    (component : Component) : Option Invocation :=
  match component.blocked? artifacts findings with
  | some _ => none
  | none => some ⟨component, component.inputs artifacts findings⟩

def step (artifacts : Category → Option Artifact) (run : Run) (component : Component) : Run where
  findings :=
    run.findings.record component.produces (component.evaluate artifacts run.findings)
  invocations := run.invocations ++ (invocation? artifacts run.findings component).toList

def ofComponents (artifacts : Category → Option Artifact) (components : List Component) : Run :=
  components.foldl (step artifacts) {}

end Run

def Schedule.run (schedule : Schedule) (artifacts : List Artifact) : Run :=
  Run.ofComponents (Artifact.latest? artifacts) schedule.components

end HostSurvey
