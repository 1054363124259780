import HostSurvey.Proofs.Run.Fixpoint

/-!
# Which derivations a run invokes

A run invokes the derivations of the components whose required dependencies are met, in the order of
the schedule, and each of them sees what it would see of the finished findings. A fact is found
exactly where an invoked derivation gives a fact of its component's kind.
-/

namespace HostSurvey

open Schedule

variable {artifacts : Category → Option Artifact} {component : Component}

theorem Run.invocation?_congr {findings findings' : Findings}
    (facts : ∀ kind, component.DependsOn kind →
      findings.outcome? kind = findings'.outcome? kind) :
    invocation? artifacts findings component = invocation? artifacts findings' component := by
  rw [invocation?, invocation?, Component.blocked?_congr facts fun _ _ => rfl,
    Component.inputs_congr facts fun _ _ => rfl]

theorem Run.invocation?_eq_some_iff {findings : Findings} {invocation : Invocation} :
    invocation? artifacts findings component = some invocation ↔
      (∀ required ∈ component.requires, Component.Met artifacts findings required) ∧
        invocation = ⟨component, component.inputs artifacts findings⟩ := by
  rw [← Component.blocked?_eq_none_iff, invocation?]
  cases component.blocked? artifacts findings with
  | none => simp [eq_comm]
  | some outcome => simp

-- Invocations against the findings so far are those against the findings of the whole list.
theorem Schedule.Settled.invocations_eq {components placed : List Component}
    (h : Settled components placed) :
    (Run.ofComponents artifacts placed).invocations =
      placed.filterMap
        (Run.invocation? artifacts (Run.ofComponents artifacts placed).findings) := by
  induction h with
  | nil => rfl
  | @snoc placed last earlier mem fresh ready ih =>
    have hkeep : ∀ component ∈ placed ++ [last],
        Run.invocation? artifacts (Run.ofComponents artifacts (placed ++ [last])).findings
            component =
          Run.invocation? artifacts (Run.ofComponents artifacts placed).findings component := by
      intro component hc
      exact Run.invocation?_congr fun _ hd => outcome?_kept earlier mem fresh ready hc hd
    rw [List.filterMap_congr hkeep, List.filterMap_append, ← ih, Run.ofComponents_snoc]
    cases hlast : Run.invocation? artifacts (Run.ofComponents artifacts placed).findings last <;>
      simp [Run.step, hlast]

namespace Schedule

variable {components : List Component} {schedule : Schedule}
  (accepted : ofComponents components = .ok schedule) (artifacts : List Artifact)

include accepted

theorem mem_invocations_iff {invocation : Invocation} :
    invocation ∈ (schedule.run artifacts).invocations ↔
      invocation.component ∈ components ∧
        (∀ required ∈ invocation.component.requires,
          Component.Met (Artifact.latest? artifacts) (schedule.run artifacts).findings required) ∧
        invocation.inputs = invocation.component.inputs (Artifact.latest? artifacts)
          (schedule.run artifacts).findings := by
  have settled := (settled_of_ofComponents accepted).1
  have hinvocations : (Run.ofComponents (Artifact.latest? artifacts)
      schedule.components).invocations = _ := settled.invocations_eq
  rw [run, hinvocations, List.mem_filterMap]
  simp only [Run.invocation?_eq_some_iff, (perm_of_ofComponents accepted).mem_iff]
  apply Iff.intro
  · intro h
    rcases h with ⟨component, hmem, met, rfl⟩
    exact ⟨hmem, met, rfl⟩
  · intro h
    rcases h with ⟨hmem, met, hinputs⟩
    refine ⟨invocation.component, hmem, met, ?_⟩
    rw [← hinputs]

theorem mem_invocations_of_met {component : Component} (hmem : component ∈ components)
    (met : ∀ required ∈ component.requires,
      Component.Met (Artifact.latest? artifacts) (schedule.run artifacts).findings required) :
    ⟨component, component.inputs (Artifact.latest? artifacts) (schedule.run artifacts).findings⟩ ∈
      (schedule.run artifacts).invocations :=
  (mem_invocations_iff accepted artifacts).2 ⟨hmem, met, rfl⟩

/-! ## Outcomes -/

-- Only a registered component has an outcome.
theorem exists_registered {kind : Kind} {outcome : Outcome}
    (h : (schedule.run artifacts).findings.outcome? kind = some outcome) :
    ∃ component ∈ components, component.produces = kind ∧ schedule.get? kind = some component := by
  have hsome : ((schedule.run artifacts).findings.outcome? kind).isSome := by rw [h]; rfl
  rcases ((solves_run accepted artifacts).domain kind).1 hsome with ⟨component, hmem, hkind⟩
  exact ⟨component, hmem, hkind, (get?_eq_some_iff accepted).2 ⟨hmem, hkind⟩⟩

theorem outcome?_of_met {component : Component} (hmem : component ∈ components)
    (met : ∀ required ∈ component.requires,
      Component.Met (Artifact.latest? artifacts) (schedule.run artifacts).findings required) :
    (schedule.run artifacts).findings.outcome? component.produces =
      some (component.conclude (component.derive (component.inputs (Artifact.latest? artifacts)
        (schedule.run artifacts).findings))) := by
  rw [(solves_run accepted artifacts).outcome?_eq hmem, Component.evaluate_of_met met]

theorem judged_of_outcome? {component : Component} (hmem : component ∈ components)
    {outcome : Outcome}
    (h : (schedule.run artifacts).findings.outcome? component.produces = some outcome) :
    component.Judged (Artifact.latest? artifacts) (schedule.run artifacts).findings outcome := by
  rcases (solves_run accepted artifacts).judged component hmem with ⟨_, houtcome, judged⟩
  rw [h] at houtcome
  cases houtcome
  exact judged

theorem found_iff {component : Component} (hmem : component ∈ components) {fact : Fact} :
    (schedule.run artifacts).findings.outcome? component.produces = some (.found fact) ↔
      (∀ required ∈ component.requires,
        Component.Met (Artifact.latest? artifacts) (schedule.run artifacts).findings required) ∧
      component.derive (component.inputs (Artifact.latest? artifacts)
        (schedule.run artifacts).findings) = .ok (.produced fact) ∧
      fact.kind = component.produces := by
  apply Iff.intro
  · intro h
    cases judged_of_outcome? accepted artifacts hmem h with
    | unmet scan met unmet => cases unmet
    | found met produced kind => exact ⟨met, produced, kind⟩
  · intro h
    rcases h with ⟨met, produced, kind⟩
    rw [outcome?_of_met accepted artifacts hmem met, produced, Component.conclude, if_pos kind]

theorem kind_of_found {kind : Kind} {fact : Fact}
    (h : (schedule.run artifacts).findings.outcome? kind = some (.found fact)) :
    fact.kind = kind := by
  rcases exists_registered accepted artifacts h with ⟨component, hmem, rfl, -⟩
  exact ((found_iff accepted artifacts hmem).1 h).2.2

end Schedule

end HostSurvey
