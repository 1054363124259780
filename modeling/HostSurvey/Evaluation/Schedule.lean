import HostSurvey.Evaluation.Component

/-!
# Schedules

A schedule is a list of components in an order in which every component comes after the producers
of the facts it uses, required and optional ones alike. It is found by a walk over the components
in the order in which they are given: the walk places the producers of a component's facts, in the
order of its dependencies, and then the component itself. There is no schedule when two components
produce the same kind, when a required fact has no producer, or when the walk comes back to a
component on its own path.
-/

namespace HostSurvey

namespace Schedule

/-- Why components have no schedule. -/
inductive Error
  | duplicateProducer (kind : Kind)
  | missingProducer (component required : Kind)
  /-- Each kind uses the next one, and the last is the first. -/
  | cycle (path : List Kind)
deriving DecidableEq

def Error.message : Error → String
  | .duplicateProducer kind => s!"fact `{kind.name}` has more than one producer"
  | .missingProducer component required =>
    s!"component `{component.name}` requires fact `{required.name}`, which nothing produces"
  | .cycle path => "dependency cycle detected: " ++ " -> ".intercalate (path.map Kind.name)

def producer? (components : List Component) (kind : Kind) : Option Component :=
  components.find? (·.produces == kind)

/-- The first kind that has been seen before. -/
def firstRepeat? (seen : List Kind) : List Kind → Option Kind
  | [] => none
  | kind :: rest => if kind ∈ seen then some kind else firstRepeat? (kind :: seen) rest

/-- The first component with a required fact that has no producer, and that fact's kind. -/
def firstMissing? (components : List Component) : Option (Kind × Kind) :=
  components.findSome? fun component =>
    ((Dependency.kinds component.requires).find? fun kind =>
      (producer? components kind).isNone).map fun kind => (component.produces, kind)

/-! ## The walk -/

/-- The number of kinds that are not on a path. -/
def unvisited (path : List Kind) : Nat := (Kind.all.filter fun kind => kind ∉ path).length

theorem unvisited_append_lt {path : List Kind} {kind : Kind} (h : kind ∉ path) :
    unvisited (path ++ [kind]) < unvisited path := by
  unfold unvisited
  have sub : (Kind.all.filter fun k => k ∉ path ++ [kind]) =
      (Kind.all.filter fun k => k ∉ path).filter fun k => k ≠ kind := by
    rw [List.filter_filter]
    congr 1
    funext k
    simp [and_comm]
  rw [sub]
  exact List.length_filter_lt_length_iff_exists.2
    ⟨kind, List.mem_filter.2 ⟨Kind.mem_all kind, by simpa using h⟩, by simp⟩

mutual

/-- Places the producer of a kind, after the producers of what it uses, unless it has been placed.
The path holds the kinds on the way from the start of the walk. -/
def visit (components : List Component) (path : List Kind) (kind : Kind)
    (placed : List Component) : Except Error (List Component) :=
  match producer? components kind with
  | none => .ok placed
  | some component =>
    if placed.any (·.produces == kind) then .ok placed
    else if _h : kind ∈ path then .error (.cycle (path.dropWhile (· ≠ kind) ++ [kind]))
    else match visitAll components (path ++ [kind]) component.uses placed with
      | .error e => .error e
      | .ok placed => .ok (placed ++ [component])
termination_by (unvisited path, 0)
decreasing_by exact Prod.Lex.left _ _ (unvisited_append_lt _h)

def visitAll (components : List Component) (path : List Kind) (kinds : List Kind)
    (placed : List Component) : Except Error (List Component) :=
  match kinds with
  | [] => .ok placed
  | kind :: rest =>
    match visit components path kind placed with
    | .error e => .error e
    | .ok placed => visitAll components path rest placed
termination_by (unvisited path, kinds.length + 1)
decreasing_by
  · exact Prod.Lex.right _ (by omega)
  · exact Prod.Lex.right _ (by simp)

end

end Schedule

/-- Components in an order in which they can be evaluated. -/
structure Schedule where
  components : List Component

namespace Schedule

def ofComponents (components : List Component) : Except Error Schedule :=
  match firstRepeat? [] (components.map (·.produces)) with
  | some kind => .error (.duplicateProducer kind)
  | none =>
    match firstMissing? components with
    | some (component, required) => .error (.missingProducer component required)
    | none =>
      match visitAll components [] (components.map (·.produces)) [] with
      | .error e => .error e
      | .ok placed => .ok ⟨placed⟩

def get? (schedule : Schedule) (kind : Kind) : Option Component :=
  producer? schedule.components kind

end Schedule

end HostSurvey
