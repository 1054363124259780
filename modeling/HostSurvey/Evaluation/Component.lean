import HostSurvey.Evaluation.Outcome

/-!
# Components

A component produces the facts of one kind. It declares the artifacts and facts it requires, those
it can do without, and a derivation, which sees exactly what was declared and is there.
-/

namespace HostSurvey

/-- What a derivation can see. -/
structure Inputs where
  consumer : Kind
  declares : Dependency → Bool
  /-- The artifacts that were declared and are there. -/
  artifacts : Category → Option Artifact
  /-- The facts that were declared and were found. -/
  facts : Kind → Option Fact

namespace Inputs

/-- A dependency that has to be declared and to be there. -/
def demand (inputs : Inputs) (dependency : Dependency) (value : Option α) : Except Fault α :=
  if inputs.declares dependency then
    match value with
    | none => .error (.unavailable inputs.consumer dependency)
    | some value => .ok value
  else .error (.undeclared inputs.consumer dependency)

def artifact (inputs : Inputs) (category : Category) : Except Fault Artifact :=
  inputs.demand (.artifact category) (inputs.artifacts category)

def artifact? (inputs : Inputs) (category : Category) : Option Artifact :=
  inputs.artifacts category

def fact (inputs : Inputs) (kind : Kind) (value? : Fact → Option α) : Except Fault α :=
  inputs.demand (.fact kind) ((inputs.facts kind).bind value?)

def fact? (inputs : Inputs) (kind : Kind) (value? : Fact → Option α) : Option α :=
  (inputs.facts kind).bind value?

end Inputs

/-- What a derivation comes to when it does not break off. -/
inductive Derivation
  | produced (fact : Fact)
  /-- There is nothing to report. -/
  | abstained (reason : String)

/-- The producer of the facts of one kind. -/
structure Component where
  produces : Kind
  description : String
  requires : List Dependency
  optional : List Dependency
  derive : Inputs → Except Fault Derivation

def Dependency.kinds (dependencies : List Dependency) : List Kind :=
  dependencies.filterMap fun
    | .artifact _ => none
    | .fact kind => some kind

namespace Component

def name (component : Component) : String := component.produces.name

def declares (component : Component) (dependency : Dependency) : Bool :=
  component.requires.contains dependency || component.optional.contains dependency

/-- The kinds of the facts that a component uses, those it requires first. -/
def uses (component : Component) : List Kind :=
  Dependency.kinds component.requires ++ Dependency.kinds component.optional

/-- What the derivation of a component sees of some artifacts and findings. -/
def inputs (component : Component) (artifacts : Category → Option Artifact) (findings : Findings) :
    Inputs where
  consumer := component.produces
  declares := component.declares
  artifacts := fun category =>
    if component.declares (.artifact category) then artifacts category else none
  facts := fun kind => if component.declares (.fact kind) then findings.fact? kind else none

/-- The outcome that a required dependency stands in the way of a component with, if it does. -/
def obstacle? (artifacts : Category → Option Artifact) (findings : Findings) :
    Dependency → Option Outcome
  | .artifact category =>
    if (artifacts category).isSome then none else some (.absent (.missingArtifact category))
  | .fact kind =>
    match findings.outcome? kind with
    | some (.found _) => none
    | some (.failed cause) => some (.failed (.inherited kind cause))
    | some (.absent _) => some (.absent (.missingFact kind))
    | none => some (.absent (.missingFact kind))

def blocked? (component : Component) (artifacts : Category → Option Artifact)
    (findings : Findings) : Option Outcome :=
  component.requires.findSome? (obstacle? artifacts findings)

/-- The outcome of what the derivation of a component came to. -/
def conclude (component : Component) : Except Fault Derivation → Outcome
  | .ok (.produced fact) =>
    if fact.kind = component.produces then .found fact
    else .failed (.wrongKind component.produces fact.kind)
  | .ok (.abstained reason) => .absent (.abstained reason)
  | .error fault => .failed (.faulted component.produces fault)

/-- The outcome of a component, whose derivation is invoked when nothing stands in its way. -/
def evaluate (component : Component) (artifacts : Category → Option Artifact)
    (findings : Findings) : Outcome :=
  match component.blocked? artifacts findings with
  | some outcome => outcome
  | none => component.conclude (component.derive (component.inputs artifacts findings))

end Component

end HostSurvey
