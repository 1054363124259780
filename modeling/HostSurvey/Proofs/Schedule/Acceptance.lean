import HostSurvey.Evaluation.Builtin
import HostSurvey.Proofs.Schedule.Walk

/-!
# Which components have a schedule

Components have a schedule exactly when no kind has two producers, no required fact is without one
and the dependency graph has no cycle. The schedule holds the same components, each one after the
producers of the facts that it depends on.
-/

namespace HostSurvey.Schedule

variable {components : List Component} {schedule : Schedule}

/-- Every component stands strictly after the producers of the facts that it depends on. -/
def ProducersFirst (order : List Component) : Prop :=
  ∀ (i j : Nat) (hi : i < order.length) (hj : j < order.length),
    order[i].DependsOn order[j].produces → j < i

theorem ofComponents_ok_iff :
    ofComponents components = .ok schedule ↔
      UniqueProducers components ∧ RequirementsProduced components ∧
        visitAll components [] (components.map (·.produces)) [] = .ok schedule.components := by
  rw [← firstRepeat?_nil_eq_none_iff, ← firstMissing?_eq_none_iff]
  unfold ofComponents
  apply Iff.intro
  · intro h
    split at h
    · cases h
    · next hunique =>
      split at h
      · cases h
      · next hmissing =>
        split at h
        · cases h
        · next placed hwalk =>
          rw [← Except.ok.inj h]
          exact ⟨hunique, hmissing, hwalk⟩
  · intro hparts
    rcases hparts with ⟨hunique, hmissing, hwalk⟩
    rw [hunique, hmissing, hwalk]

-- A schedule is a settled list of all the components.
theorem settled_of_ofComponents (accepted : ofComponents components = .ok schedule) :
    Settled components schedule.components ∧ components ⊆ schedule.components := by
  rcases ofComponents_ok_iff.1 accepted with ⟨unique, -, hwalk⟩
  have placement := visitAll_placement unique .nil hwalk
  refine ⟨placement.settled, fun component hmem => ?_⟩
  exact placement.reaches _ (List.mem_map_of_mem hmem) component hmem rfl

theorem perm_of_ofComponents (accepted : ofComponents components = .ok schedule) :
    schedule.components.Perm components := by
  rcases ofComponents_ok_iff.1 accepted with ⟨unique, -, -⟩
  rcases settled_of_ofComponents accepted with ⟨settled, all⟩
  -- neither list repeats a component, so the same members are enough
  rw [List.perm_ext_iff_of_nodup settled.uniqueProducers.nodup unique.nodup]
  exact fun component => ⟨fun hmem => settled.subset hmem, fun hmem => all hmem⟩

theorem get?_eq_some_iff (accepted : ofComponents components = .ok schedule) {kind : Kind}
    {component : Component} :
    schedule.get? kind = some component ↔ component ∈ components ∧ component.produces = kind := by
  have settled := (settled_of_ofComponents accepted).1
  unfold get?
  rw [settled.uniqueProducers.producer?_eq_some_iff, (perm_of_ofComponents accepted).mem_iff]

theorem get?_eq_none_iff (accepted : ofComponents components = .ok schedule) {kind : Kind} :
    schedule.get? kind = none ↔ ∀ component ∈ components, component.produces ≠ kind := by
  unfold get?
  rw [producer?_eq_none_iff]
  simp only [(perm_of_ofComponents accepted).mem_iff]

-- Whatever has unique producers, no missing ones and no cycle is accepted.
theorem exists_ofComponents (unique : UniqueProducers components)
    (produced : RequirementsProduced components) (acyclic : Acyclic components) :
    ∃ schedule, ofComponents components = .ok schedule := by
  cases hwalk : visitAll components [] (components.map (·.produces)) [] with
  | ok placed => exact ⟨⟨placed⟩, ofComponents_ok_iff.2 ⟨unique, produced, hwalk⟩⟩
  | error e =>
    -- a walk breaks off only at a cycle
    rcases visitAll_isCycle hwalk with ⟨cycle, -, hcycle⟩
    exact absurd hcycle (acyclic.not_isCycle unique)

theorem acyclic_of_ofComponents (accepted : ofComponents components = .ok schedule) :
    Acyclic components := by
  rcases settled_of_ofComponents accepted with ⟨settled, all⟩
  exact settled.acyclic all

theorem ofComponents_of_walk {placed : List Component}
    (unique : firstRepeat? [] (components.map (·.produces)) = none)
    (produced : firstMissing? components = none)
    (walk : visitAll components [] (components.map (·.produces)) [] = .ok placed) :
    ofComponents components = .ok ⟨placed⟩ :=
  ofComponents_ok_iff.2
    ⟨(firstRepeat?_nil_eq_none_iff _).1 unique, (firstMissing?_eq_none_iff _).1 produced, walk⟩

-- The built-in components are declared in the order of their schedule.
theorem ofComponents_builtins : ofComponents Component.builtins = .ok ⟨Component.builtins⟩ :=
  ofComponents_of_walk (by decide) (by decide) (by cbv)

/-- Components are accepted exactly when they can be ordered, and the order of the schedule is such
an order. -/
theorem ofComponents_isOk_iff_and_ordered (components : List Component) :
    ((∃ schedule, ofComponents components = .ok schedule) ↔
      UniqueProducers components ∧ RequirementsProduced components ∧ Acyclic components) ∧
    ∀ schedule, ofComponents components = .ok schedule →
      schedule.components.Perm components ∧
      ProducersFirst schedule.components ∧
      ∀ kind,
        (∀ component, schedule.get? kind = some component ↔
          component ∈ components ∧ component.produces = kind) ∧
        (schedule.get? kind = none ↔ ∀ component ∈ components, component.produces ≠ kind) := by
  apply And.intro
  · apply Iff.intro
    · intro hsome
      rcases hsome with ⟨schedule, accepted⟩
      rcases ofComponents_ok_iff.1 accepted with ⟨unique, produced, -⟩
      exact ⟨unique, produced, acyclic_of_ofComponents accepted⟩
    · intro hparts
      rcases hparts with ⟨unique, produced, acyclic⟩
      exact exists_ofComponents unique produced acyclic
  · intro schedule accepted
    refine ⟨perm_of_ofComponents accepted, ?_, fun kind => ⟨fun component => ?_, ?_⟩⟩
    · intro i j hi hj hdepends
      exact (settled_of_ofComponents accepted).1.lt_of_dependsOn hi hj hdepends
    · exact get?_eq_some_iff accepted
    · exact get?_eq_none_iff accepted

/-- A producer is pulled ahead of the components that were given before it. -/
theorem ofComponents_pulls_inventory_ahead :
    ofComponents [Component.memory, Component.reading .kernelIdentity,
        Component.reading .inventory] =
      .ok ⟨[Component.reading .inventory, Component.memory,
        Component.reading .kernelIdentity]⟩ ∧
    ProducersFirst [Component.reading .inventory, Component.memory,
      Component.reading .kernelIdentity] := by
  have accepted : ofComponents [Component.memory, Component.reading .kernelIdentity,
      Component.reading .inventory] =
    .ok ⟨[Component.reading .inventory, Component.memory, Component.reading .kernelIdentity]⟩ :=
    ofComponents_of_walk (by decide) (by decide) (by cbv)
  exact ⟨accepted, ((ofComponents_isOk_iff_and_ordered _).2 _ accepted).2.1⟩

end HostSurvey.Schedule
