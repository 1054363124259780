import HostSurvey.Fact.Basic

/-!
# Outcomes

Evaluating a component for a host finds a fact, or nothing, or fails. A component that is missing
something it requires has no fact; one whose required fact failed has failed too, and keeps the
cause. The outcomes of all components of a host are its findings.
-/

namespace HostSurvey

/-- Something that a component consumes. -/
inductive Dependency
  | artifact (category : Category)
  | fact (kind : Kind)
deriving DecidableEq

def Dependency.text : Dependency → String
  | .artifact category => s!"context `{category.name}`"
  | .fact kind => s!"fact `{kind.name}`"

/-- Why the derivation of a component broke off. -/
inductive Fault
  /-- It asked for something that it does not declare. -/
  | undeclared (consumer : Kind) (dependency : Dependency)
  /-- It asked for something that is not there. -/
  | unavailable (consumer : Kind) (dependency : Dependency)
  | memory (cause : InstalledMemory.Error)
  /-- It gave up with a message. -/
  | stated (message : String)
  | crashed (message : Option String)
deriving DecidableEq

def Fault.message : Fault → String
  | .undeclared consumer dependency =>
    s!"component `{consumer.name}` did not declare {dependency.text}"
  | .unavailable consumer dependency =>
    s!"{dependency.text} is not available to `{consumer.name}`"
  | .memory cause => cause.message
  | .stated message => message
  | .crashed message => message.getD "unknown panic"

/-- Why a component failed. -/
inductive Failure
  | faulted (component : Kind) (fault : Fault)
  | wrongKind (component produced : Kind)
  /-- A fact that it requires failed. -/
  | inherited (required : Kind) (cause : Failure)
deriving DecidableEq

/-- The wording of a failure. A crash names the component in front; any other fault notes it. -/
def Failure.message : Failure → String
  | .faulted component (.crashed message) =>
    s!"component `{component.name}` panicked: {(Fault.crashed message).message}"
  | .faulted component fault =>
    Text.withNote fault.message s!"deriving `{component.name}`"
  | .wrongKind component produced =>
    s!"component `{component.name}` produced a `{produced.name}` fact instead of `{component.name}`"
  | .inherited required cause => s!"required fact `{required.name}` failed: {cause.message}"

/-- Why a component has no fact although nothing went wrong. -/
inductive Absence
  | abstained (reason : String)
  | missingArtifact (category : Category)
  | missingFact (kind : Kind)
deriving DecidableEq

def Absence.message : Absence → String
  | .abstained reason => s!"abstained: {reason}"
  | .missingArtifact category => s!"missing context `{category.name}`"
  | .missingFact kind => s!"missing fact `{kind.name}`"

/-- What evaluating a component for a host gave. -/
inductive Outcome
  | found (fact : Fact)
  | absent (absence : Absence)
  | failed (failure : Failure)

namespace Outcome

def isFound : Outcome → Bool
  | found _ => true
  | _ => false

def isAbsent : Outcome → Bool
  | absent _ => true
  | _ => false

def isFailed : Outcome → Bool
  | failed _ => true
  | _ => false

def fact? : Outcome → Option Fact
  | found fact => some fact
  | _ => none

end Outcome

/-! ## Findings -/

/-- The outcomes of the components that were evaluated for a host. -/
structure Findings where
  outcome? : Kind → Option Outcome

namespace Findings

def empty : Findings := ⟨fun _ => none⟩

def record (findings : Findings) (kind : Kind) (outcome : Outcome) : Findings :=
  ⟨fun k => if k = kind then some outcome else findings.outcome? k⟩

def fact? (findings : Findings) (kind : Kind) : Option Fact :=
  (findings.outcome? kind).bind Outcome.fact?

def toList (findings : Findings) : List (Kind × Outcome) :=
  Kind.all.filterMap fun kind => (findings.outcome? kind).map fun outcome => (kind, outcome)

def count (findings : Findings) (test : Outcome → Bool) : Nat :=
  findings.toList.countP fun (_, outcome) => test outcome

@[simp] theorem outcome?_record (findings : Findings) (kind : Kind) (outcome : Outcome) (k : Kind) :
    (findings.record kind outcome).outcome? k =
      if k = kind then some outcome else findings.outcome? k := rfl

theorem ext {a b : Findings} (h : ∀ k, a.outcome? k = b.outcome? k) : a = b := by
  cases a
  cases b
  simp only [Findings.mk.injEq]
  exact funext h

end Findings

end HostSurvey
