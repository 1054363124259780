import HostSurvey.Proofs.Schedule.Walk

/-!
# The walk with marks and a stack

The walk of a schedule tells from its path and from what is placed how far it has come with a
component. Here the same walk keeps a mark for each kind and a stack of the kinds it has entered and
not left, and looks up on the stack where a cycle starts. It needs no measure to be defined: it may
nest to a given depth and gives nothing when that is not enough. Such a walk agrees with the other one
(`markedWalk_agrees`): as many levels as there are components and one more are always enough, the
stack is the path and holds the kinds that are marked as entered, and a kind that closes a cycle is
found there.
-/

namespace HostSurvey.Schedule

/-- How far the walk has come with the producer of a kind. -/
inductive Mark
  /-- The producers of what it uses are being placed. -/
  | entered
  | placed
deriving DecidableEq

/-- What the walk keeps. -/
structure MarkedState where
  marks : Kind → Option Mark
  stack : List Kind
  order : List Component

/-- Why the walk breaks off: it has come back to a kind that it has not left. The start of the cycle
is the place of that kind on the stack. -/
structure Loop where
  start? : Option Nat
  path : List Kind

namespace MarkedState

def initial : MarkedState := ⟨fun _ => none, [], []⟩

def enter (state : MarkedState) (kind : Kind) : MarkedState where
  marks := Function.update state.marks kind (some .entered)
  stack := state.stack ++ [kind]
  order := state.order

def leave (state : MarkedState) (kind : Kind) (component : Component) : MarkedState where
  marks := Function.update state.marks kind (some .placed)
  stack := state.stack.dropLast
  order := state.order ++ [component]

/-- A kind that is not found on the stack would make the whole stack a part of the cycle. -/
def loop (state : MarkedState) (kind : Kind) : Loop where
  start? := state.stack.idxOf? kind
  path := state.stack.drop ((state.stack.idxOf? kind).getD 0) ++ [kind]

end MarkedState

/-- Visits kinds one after another, up to the first visit that breaks off or gives nothing. -/
def markedVisitAll (visit : Kind → MarkedState → Option (Except Loop MarkedState)) :
    List Kind → MarkedState → Option (Except Loop MarkedState)
  | [], state => some (.ok state)
  | kind :: rest, state =>
    match visit kind state with
    | none => none
    | some (.error loop) => some (.error loop)
    | some (.ok state) => markedVisitAll visit rest state

/-- Places the producer of a kind as `visit` does, on at most so many levels. -/
def markedVisit (components : List Component) :
    Nat → Kind → MarkedState → Option (Except Loop MarkedState)
  | 0, _, _ => none
  | levels + 1, kind, state =>
    match producer? components kind with
    | none => some (.ok state)
    | some component =>
      match state.marks kind with
      | some .placed => some (.ok state)
      | some .entered => some (.error (state.loop kind))
      | none =>
        match markedVisitAll (markedVisit components levels) component.uses (state.enter kind) with
        | none => none
        | some (.error loop) => some (.error loop)
        | some (.ok state) => some (.ok (state.leave kind component))

def markedWalk (components : List Component) (levels : Nat) : Option (Except Loop MarkedState) :=
  markedVisitAll (markedVisit components levels) (components.map (·.produces)) .initial

variable {components placed placed' : List Component} {path : List Kind} {kind : Kind}
  {state state' : MarkedState}

/-! ## The invariant -/

/-- The stack is the path, the kinds marked as entered are those on it, and the kinds marked as placed
are those of the placed components. -/
structure Marks (state : MarkedState) (path : List Kind) (placed : List Component) : Prop where
  stack : state.stack = path
  order : state.order = placed
  entered : ∀ kind, state.marks kind = some .entered ↔ kind ∈ path
  placed : ∀ kind, state.marks kind = some .placed ↔ ∃ other ∈ placed, other.produces = kind

theorem Marks.any_iff (h : Marks state path placed) :
    placed.any (·.produces == kind) = true ↔ state.marks kind = some .placed := by
  rw [h.placed]
  simp

theorem marks_initial : Marks .initial [] [] where
  stack := rfl
  order := rfl
  entered := fun kind => iff_of_false (by simp [MarkedState.initial]) List.not_mem_nil
  placed := fun kind => iff_of_false (by simp [MarkedState.initial]) (by simp)

theorem Marks.enter (h : Marks state path placed) (hmark : state.marks kind = none) :
    Marks (state.enter kind) (path ++ [kind]) placed where
  stack := by rw [MarkedState.enter, h.stack]
  order := h.order
  entered := by
    intro other
    rw [List.mem_append, List.mem_singleton, ← h.entered, MarkedState.enter]
    by_cases heq : other = kind
    · simp [heq]
    · simp [heq]
  placed := by
    intro other
    rw [← h.placed, MarkedState.enter]
    by_cases heq : other = kind
    · simp [heq, hmark]
    · simp [Function.update_of_ne heq]

theorem Marks.leave {component : Component} (h : Marks state (path ++ [kind]) placed)
    (hkind : component.produces = kind) (hpath : kind ∉ path) :
    Marks (state.leave kind component) path (placed ++ [component]) where
  stack := by rw [MarkedState.leave, h.stack, List.dropLast_concat]
  order := by rw [MarkedState.leave, h.order]
  entered := by
    intro other
    show Function.update state.marks kind (some .placed) other = some .entered ↔ other ∈ path
    by_cases heq : other = kind
    · subst heq
      simp [hpath]
    · rw [Function.update_of_ne heq, h.entered]
      simp [heq]
  placed := by
    intro other
    show Function.update state.marks kind (some .placed) other = some .placed ↔ _
    by_cases heq : other = kind
    · subst heq
      simp [hkind]
    · rw [Function.update_of_ne heq, h.placed]
      have hne : component.produces ≠ other := fun hsame => heq (hsame.symm.trans hkind)
      simp [hne]

theorem exists_idxOf?_of_mem (h : kind ∈ path) :
    ∃ start, path.idxOf? kind = some start ∧ path.drop start = path.dropWhile (· ≠ kind) := by
  induction path with
  | nil => cases h
  | cons first rest ih =>
    rw [List.idxOf?_cons]
    by_cases heq : first = kind
    · exact ⟨0, by simp [heq], by simp [heq]⟩
    · have hrest : kind ∈ rest := by
        rcases List.mem_cons.1 h with hsame | hrest
        · exact absurd hsame.symm heq
        · exact hrest
      rcases ih hrest with ⟨start, hstart, hdrop⟩
      exact ⟨start + 1, by simp [heq, hstart], by simpa [heq] using hdrop⟩

-- A kind that is marked as entered is found on the stack, where the cycle starts.
theorem Marks.loop_eq (h : Marks state path placed) (hmark : state.marks kind = some .entered) :
    ∃ start, state.loop kind = ⟨some start, path.dropWhile (· ≠ kind) ++ [kind]⟩ := by
  rcases exists_idxOf?_of_mem ((h.entered kind).1 hmark) with ⟨start, hstart, hdrop⟩
  refine ⟨start, ?_⟩
  rw [MarkedState.loop, h.stack, hstart, ← hdrop]
  rfl

/-! ## Agreement -/

/-- What the walk with marks comes to, beside what the other walk comes to on the same path. -/
inductive Agrees (path : List Kind) :
    Option (Except Loop MarkedState) → Except Error (List Component) → Prop
  | placed {state : MarkedState} {placed : List Component} (marks : Marks state path placed) :
      Agrees path (some (.ok state)) (.ok placed)
  | cycle (start : Nat) (cycle : List Kind) :
      Agrees path (some (.error ⟨some start, cycle⟩)) (.error (.cycle cycle))

theorem markedVisitAll_agrees {visit' : Kind → MarkedState → Option (Except Loop MarkedState)}
    (single : ∀ kind state placed, Marks state path placed →
      Agrees path (visit' kind state) (visit components path kind placed))
    (kinds : List Kind) (h : Marks state path placed) :
    Agrees path (markedVisitAll visit' kinds state) (visitAll components path kinds placed) := by
  induction kinds generalizing state placed with
  | nil =>
    rw [markedVisitAll, visitAll]
    exact .placed h
  | cons kind rest ih =>
    rw [markedVisitAll, visitAll]
    have first := single kind state placed h
    revert first
    generalize visit' kind state = result, visit components path kind placed = result'
    intro first
    cases first with
    | placed marks => exact ih marks
    | cycle start cycle => exact .cycle start cycle

theorem markedVisit_agrees (levels : Nat) :
    ∀ path : List Kind, path.Nodup → path ⊆ components.map (·.produces) →
      components.length < levels + path.length → ∀ kind state placed, Marks state path placed →
      Agrees path (markedVisit components levels kind state)
        (visit components path kind placed) := by
  -- one level less is left when the path is longer by one
  induction levels with
  | zero =>
    intro path hnodup hsub hlevels
    have hlength := hnodup.length_le_of_subset hsub
    rw [List.length_map] at hlength
    omega
  | succ levels ih =>
    intro path hnodup hsub hlevels kind state placed h
    rw [markedVisit, visit]
    cases hsome : producer? components kind with
    | none => exact .placed h
    | some component =>
      rcases mem_of_producer? hsome with ⟨hmem, hkind⟩
      dsimp only
      cases hmark : state.marks kind with
      | none =>
        have hfresh : ¬ (placed.any (·.produces == kind)) = true := by
          rw [h.any_iff, hmark]
          decide
        have hpath : kind ∉ path := by
          rw [← h.entered, hmark]
          decide
        have hnodup' := nodup_path_append hnodup hpath
        have hsub' : path ++ [kind] ⊆ components.map (·.produces) := by
          have hmem' : kind ∈ components.map (·.produces) := List.mem_map.2 ⟨component, hmem, hkind⟩
          exact List.append_subset.2 ⟨hsub, List.cons_subset.2 ⟨hmem', List.nil_subset _⟩⟩
        have inner := markedVisitAll_agrees (ih (path ++ [kind]) hnodup' hsub'
          (by rw [List.length_append, List.length_singleton]; omega)) component.uses (h.enter hmark)
        rw [if_neg hfresh, dif_neg hpath]
        dsimp only
        revert inner
        generalize markedVisitAll _ component.uses _ = result,
          visitAll components (path ++ [kind]) component.uses placed = result'
        intro inner
        cases inner with
        | placed marks => exact .placed (marks.leave hkind hpath)
        | cycle start cycle => exact .cycle start cycle
      | some mark =>
        cases mark with
        | placed =>
          rw [if_pos (h.any_iff.2 hmark)]
          exact .placed h
        | entered =>
          have hfresh : ¬ (placed.any (·.produces == kind)) = true := by
            rw [h.any_iff, hmark]
            decide
          rcases h.loop_eq hmark with ⟨start, hloop⟩
          rw [if_neg hfresh, dif_pos ((h.entered kind).1 hmark)]
          dsimp only
          rw [hloop]
          exact .cycle start _

/-- Levels for all components and one more are enough, and what the walk with marks comes to is what
the other walk comes to. -/
theorem markedWalk_agrees {levels : Nat} (h : components.length < levels) :
    Agrees [] (markedWalk components levels)
      (visitAll components [] (components.map (·.produces)) []) :=
  markedVisitAll_agrees (markedVisit_agrees levels [] List.nodup_nil (List.nil_subset _) h) _
    marks_initial

end HostSurvey.Schedule
