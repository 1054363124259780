import HostSurvey.Proofs.Schedule.Acceptance
import HostSurvey.Proofs.Schedule.MarkedWalk

/-!
# Reported cycles

When no kind has two producers and no required fact is without one, the only reason why components
have no schedule is a cycle, and the one that is reported is there: it comes back to where it starts,
meets no other kind twice, and follows the dependencies of components. Kinds that only lead into the
cycle are not listed. The walk with marks and a stack finds the start of the same cycle on its stack.
-/

namespace HostSurvey.Schedule

variable {components : List Component}

-- Whatever a cycle lists lies on it.
theorem IsCycle.transGen_of_mem {cycle : List Kind} (h : IsCycle components cycle) :
    ∀ kind ∈ cycle, Relation.TransGen (Uses components) kind kind := by
  rcases h with ⟨start, rest, rfl, -, hchain⟩
  have hchain' : (start :: (rest ++ [start])).IsChain (Relation.TransGen (Uses components)) :=
    hchain.imp fun _ _ u => .single u
  have hstart : Relation.TransGen (Uses components) start start := hchain'.rel_cons (by simp)
  intro kind hmem
  by_cases heq : kind = start
  · rw [heq]
    exact hstart
  · have hrest : kind ∈ rest := by simpa [heq] using hmem
    have hto : Relation.TransGen (Uses components) start kind :=
      hchain'.rel_cons (List.mem_append_left _ hrest)
    -- what follows the kind on the cycle ends at the start
    rcases List.append_of_mem hrest with ⟨before, after, rfl⟩
    have hafter : (kind :: (after ++ [start])).IsChain (Relation.TransGen (Uses components)) :=
      hchain'.suffix ⟨start :: before, by simp⟩
    have hback : Relation.TransGen (Uses components) kind start := hafter.rel_cons (by simp)
    exact hback.trans hto

-- Past the first two checks, components are rejected by the walk.
theorem ofComponents_error_iff {error : Error} (unique : UniqueProducers components)
    (produced : RequirementsProduced components) :
    ofComponents components = .error error ↔
      visitAll components [] (components.map (·.produces)) [] = .error error := by
  unfold ofComponents
  rw [(firstRepeat?_nil_eq_none_iff components).2 unique,
    (firstMissing?_eq_none_iff components).2 produced]
  cases visitAll components [] (components.map (·.produces)) [] with
  | ok placed => simp
  | error e => simp

theorem isCycle_of_ofComponents {error : Error} (unique : UniqueProducers components)
    (produced : RequirementsProduced components) (h : ofComponents components = .error error) :
    ∃ cycle, error = .cycle cycle ∧ IsCycle components cycle :=
  visitAll_isCycle ((ofComponents_error_iff unique produced).1 h)

theorem Agrees.of_ok {path : List Kind} {result : Option (Except Loop MarkedState)}
    {placed : List Component} (h : Agrees path result (.ok placed)) :
    ∃ state, result = some (.ok state) ∧ state.order = placed := by
  cases h with
  | placed marks => exact ⟨_, rfl, marks.order⟩

theorem Agrees.of_cycle {path cycle : List Kind} {result : Option (Except Loop MarkedState)}
    (h : Agrees path result (.error (.cycle cycle))) :
    ∃ start, result = some (.error ⟨some start, cycle⟩) := by
  cases h with
  | cycle start => exact ⟨start, rfl⟩

/-- Components with unique producers and none missing have a schedule, or the report of a cycle that
is there. The walk with marks ends the same way, with the start of the cycle on its stack. -/
theorem ofComponents_reports_real_cycle (unique : UniqueProducers components)
    (produced : RequirementsProduced components) :
    ((∃ schedule, ofComponents components = .ok schedule) ∨
      ∃ cycle, ofComponents components = .error (.cycle cycle)) ∧
    (∀ error, ofComponents components = .error error →
      ∃ cycle start rest, error = .cycle cycle ∧
        error.message =
          "dependency cycle detected: " ++ " -> ".intercalate (cycle.map Kind.name) ∧
        cycle = start :: rest ++ [start] ∧
        ((start :: rest).map Kind.name).Nodup ∧
        (∀ kind ∈ cycle, ∃ component ∈ components, component.produces = kind) ∧
        cycle.IsChain (Uses components) ∧
        ∀ kind ∈ cycle, Relation.TransGen (Uses components) kind kind) ∧
    ∀ levels, components.length < levels →
      (∀ schedule, ofComponents components = .ok schedule →
        ∃ state, markedWalk components levels = some (.ok state) ∧
          state.order = schedule.components) ∧
      ∀ cycle, ofComponents components = .error (.cycle cycle) →
        ∃ start, markedWalk components levels = some (.error ⟨some start, cycle⟩) := by
  refine ⟨?_, fun error h => ?_, fun levels hlevels => ⟨fun schedule h => ?_, fun cycle h => ?_⟩⟩
  · cases h : ofComponents components with
    | ok schedule => exact .inl ⟨schedule, rfl⟩
    | error error =>
      rcases isCycle_of_ofComponents unique produced h with ⟨cycle, rfl, -⟩
      exact .inr ⟨cycle, rfl⟩
  · rcases isCycle_of_ofComponents unique produced h with ⟨cycle, rfl, hcycle⟩
    have hon := hcycle.transGen_of_mem
    rcases hcycle with ⟨start, rest, hlist, hnodup, hchain⟩
    refine ⟨cycle, start, rest, rfl, rfl, hlist, ?_, fun kind hmem => ?_, hchain, hon⟩
    · exact hnodup.map fun _ _ => Kind.name_injective
    · rcases Relation.TransGen.head'_iff.1 (hon kind hmem) with ⟨_, ⟨consumer, _, e, hkind, _⟩, _⟩
      exact ⟨consumer, e.consumer_mem, hkind⟩
  · have agrees := markedWalk_agrees hlevels
    rw [(ofComponents_ok_iff.1 h).2.2] at agrees
    exact agrees.of_ok
  · have agrees := markedWalk_agrees hlevels
    rw [(ofComponents_error_iff unique produced).1 h] at agrees
    exact agrees.of_cycle

/-- A component that can do without the facts that it uses. -/
def userOf (kind : Kind) (used : List Kind) : Component where
  produces := kind
  description := kind.name
  requires := []
  optional := used.map .fact
  derive := fun _ => .ok (.abstained "nothing to report")

/-- The subscription uses the distribution, which stands on a cycle with the memory. -/
def subscriptionIntoCycle : List Component :=
  [userOf .subscription [.distribution], userOf .distribution [.memory],
    userOf .memory [.distribution]]

/-- The walk enters the cycle at the distribution, and the subscription is not listed. -/
theorem subscription_not_on_cycle :
    ofComponents subscriptionIntoCycle = .error (.cycle [.distribution, .memory, .distribution]) ∧
    Relation.TransGen (Uses subscriptionIntoCycle) .memory .memory ∧
    ∃ start, markedWalk subscriptionIntoCycle 4 =
      some (.error ⟨some start, [.distribution, .memory, .distribution]⟩) := by
  have unique : UniqueProducers subscriptionIntoCycle :=
    (firstRepeat?_nil_eq_none_iff _).1 (by decide)
  have produced : RequirementsProduced subscriptionIntoCycle :=
    (firstMissing?_eq_none_iff _).1 (by decide)
  have rejected : ofComponents subscriptionIntoCycle =
      .error (.cycle [.distribution, .memory, .distribution]) := by
    cbv
  have real := ofComponents_reports_real_cycle unique produced
  rcases real.2.1 _ rejected with ⟨cycle, start, rest, hcycle, -, -, -, -, -, hon⟩
  cases hcycle
  exact ⟨rejected, hon .memory (by decide), (real.2.2 4 (by decide)).2 _ rejected⟩

end HostSurvey.Schedule
