import HostSurvey.Evaluation.Builtin
import HostSurvey.Evaluation.Run
import HostSurvey.Proofs.Run.Rule
import HostSurvey.Proofs.Schedule.Acceptance

/-!
# The findings of a run solve the rule of evaluation

A run evaluates each component against the findings so far. Along a schedule this comes to the same
as evaluation against the finished findings, because whatever a component looks at is settled before
its turn. The findings of a run are therefore a solution of the rule of evaluation over themselves,
and there is no other.
-/

namespace HostSurvey

open Schedule

namespace Run

variable {artifacts : Category → Option Artifact}

theorem ofComponents_snoc (placed : List Component) (component : Component) :
    ofComponents artifacts (placed ++ [component]) =
      step artifacts (ofComponents artifacts placed) component := by
  unfold ofComponents
  rw [List.foldl_append, List.foldl_cons, List.foldl_nil]

theorem outcome?_step (run : Run) (component : Component) (kind : Kind) :
    (step artifacts run component).findings.outcome? kind =
      if kind = component.produces then some (component.evaluate artifacts run.findings)
      else run.findings.outcome? kind := rfl

-- A run has an outcome for the kinds of its components and for no others.
theorem isSome_outcome?_iff (placed : List Component) (kind : Kind) :
    ((ofComponents artifacts placed).findings.outcome? kind).isSome ↔
      ∃ component ∈ placed, component.produces = kind := by
  -- a run grows at the end of its components
  induction placed using List.reverseRecOn with
  | nil =>
    apply Iff.intro
    · intro h; cases h
    · intro hproduced
      rcases hproduced with ⟨component, hmem, -⟩
      cases hmem
  | append_singleton placed last ih =>
    rw [ofComponents_snoc, outcome?_step]
    by_cases hkind : kind = last.produces
    · rw [if_pos hkind]
      exact ⟨fun _ => ⟨last, by simp, hkind.symm⟩, fun _ => rfl⟩
    · rw [if_neg hkind, ih]
      apply Iff.intro
      · intro hproduced
        rcases hproduced with ⟨component, hmem, hk⟩
        exact ⟨component, List.mem_append_left _ hmem, hk⟩
      · intro hproduced
        rcases hproduced with ⟨component, hmem, hk⟩
        rcases List.mem_append.1 hmem with hmem | hmem
        · exact ⟨component, hmem, hk⟩
        · rw [List.mem_singleton] at hmem
          exact absurd (hmem ▸ hk.symm) hkind

theorem outcome?_eq_none {placed : List Component} {kind : Kind}
    (h : ∀ component ∈ placed, component.produces ≠ kind) :
    (ofComponents artifacts placed).findings.outcome? kind = none := by
  rw [← Option.not_isSome_iff_eq_none, isSome_outcome?_iff]
  intro hproduced
  rcases hproduced with ⟨component, hmem, hk⟩
  exact h component hmem hk

end Run

namespace Schedule.Settled

variable {artifacts : Category → Option Artifact} {components placed : List Component}

theorem not_dependsOn_of_fresh (h : Settled components placed) {component later : Component}
    (hc : component ∈ placed) (hl : later ∈ components)
    (fresh : ∀ other ∈ placed, other.produces ≠ later.produces) :
    ¬ component.DependsOn later.produces :=
  fun hd => fresh later (h.closed hc hl hd) rfl

-- The step that evaluates the last component changes no outcome that a component depends on, be it
-- an earlier one or the last one itself.
theorem outcome?_kept {last : Component} (earlier : Settled components placed)
    (mem : last ∈ components) (fresh : ∀ other ∈ placed, other.produces ≠ last.produces)
    (ready : ∀ producer ∈ components, last.DependsOn producer.produces → producer ∈ placed)
    {component : Component} (hc : component ∈ placed ++ [last]) {kind : Kind}
    (hd : component.DependsOn kind) :
    (Run.ofComponents artifacts (placed ++ [last])).findings.outcome? kind =
      (Run.ofComponents artifacts placed).findings.outcome? kind := by
  have hnot : ¬ component.DependsOn last.produces := by
    rcases List.mem_append.1 hc with hc | hc
    · exact earlier.not_dependsOn_of_fresh hc mem fresh
    · -- the last component would have to be there before itself
      rw [List.mem_singleton] at hc
      subst hc
      exact fun hd => fresh component (ready component mem hd) rfl
  rw [Run.ofComponents_snoc, Run.outcome?_step, if_neg]
  exact fun hk => hnot (hk ▸ hd)

-- Every component of a settled list has the outcome that it would have over the findings of the
-- whole list.
theorem outcome?_eq (h : Settled components placed) {component : Component}
    (hc : component ∈ placed) :
    (Run.ofComponents artifacts placed).findings.outcome? component.produces =
      some (component.evaluate artifacts (Run.ofComponents artifacts placed).findings) := by
  induction h with
  | nil => cases hc
  | @snoc placed last earlier mem fresh ready ih =>
    have hkeep : component.evaluate artifacts
          (Run.ofComponents artifacts (placed ++ [last])).findings =
        component.evaluate artifacts (Run.ofComponents artifacts placed).findings :=
      Component.evaluate_congr
        (fun _ hd => outcome?_kept earlier mem fresh ready hc hd) (fun _ _ => rfl)
    rw [hkeep, Run.ofComponents_snoc, Run.outcome?_step]
    rcases List.mem_append.1 hc with hc | hc
    · rw [if_neg (fresh component hc), ih hc]
    · rw [List.mem_singleton] at hc
      subst hc
      rw [if_pos rfl]

end Schedule.Settled

/-! ## Solutions -/

/-- Findings that have exactly the kinds of some components, each with the outcome that the rule
gives it over these very findings. -/
structure Solves (components : List Component) (artifacts : Category → Option Artifact)
    (findings : Findings) : Prop where
  domain : ∀ kind, (findings.outcome? kind).isSome ↔
    ∃ component ∈ components, component.produces = kind
  judged : ∀ component ∈ components, ∃ outcome,
    findings.outcome? component.produces = some outcome ∧
      component.Judged artifacts findings outcome

namespace Solves

variable {components placed : List Component} {artifacts : Category → Option Artifact}
  {findings : Findings}

theorem outcome?_eq_none (h : Solves components artifacts findings) {kind : Kind}
    (hk : ∀ component ∈ components, component.produces ≠ kind) :
    findings.outcome? kind = none := by
  rw [← Option.not_isSome_iff_eq_none, h.domain]
  intro hproduced
  rcases hproduced with ⟨component, hmem, hkind⟩
  exact hk component hmem hkind

theorem outcome?_eq (h : Solves components artifacts findings) {component : Component}
    (hmem : component ∈ components) :
    findings.outcome? component.produces = some (component.evaluate artifacts findings) := by
  rcases h.judged component hmem with ⟨outcome, houtcome, judged⟩
  rw [houtcome, judged.evaluate_eq]

-- A solution agrees with a run on everything that has been settled.
theorem outcome?_eq_run (h : Solves components artifacts findings)
    (settled : Settled components placed) {component : Component} (hc : component ∈ placed) :
    findings.outcome? component.produces =
      (Run.ofComponents artifacts placed).findings.outcome? component.produces := by
  induction settled generalizing component with
  | nil => cases hc
  | @snoc placed last earlier mem fresh ready ih =>
    rw [Run.ofComponents_snoc, Run.outcome?_step]
    rcases List.mem_append.1 hc with hc | hc
    · rw [if_neg (fresh component hc)]
      exact ih hc
    · rw [List.mem_singleton] at hc
      subst hc
      rw [if_pos rfl, h.outcome?_eq mem]
      congr 1
      refine Component.evaluate_congr (fun kind hd => ?_) (fun _ _ => rfl)
      -- what the component depends on is settled, or nothing produces it
      cases hproducer : producer? components kind with
      | some producer =>
        rcases mem_of_producer? hproducer with ⟨hp, rfl⟩
        exact ih (ready producer hp hd)
      | none =>
        have hnone := producer?_eq_none_iff.1 hproducer
        rw [h.outcome?_eq_none hnone,
          Run.outcome?_eq_none fun producer hp => hnone producer (earlier.subset hp)]

end Solves

namespace Schedule

variable {components : List Component} {schedule : Schedule}

theorem solves_run (accepted : ofComponents components = .ok schedule) (artifacts : List Artifact) :
    Solves components (Artifact.latest? artifacts) (schedule.run artifacts).findings := by
  rcases settled_of_ofComponents accepted with ⟨settled, all⟩
  have domain : ∀ kind, ((schedule.run artifacts).findings.outcome? kind).isSome ↔
      ∃ component ∈ components, component.produces = kind := by
    intro kind
    rw [run, Run.isSome_outcome?_iff]
    simp only [(perm_of_ofComponents accepted).mem_iff]
  -- required facts have producers, so they have outcomes, as the rule needs
  refine ⟨domain, fun component hmem => ⟨_, settled.outcome?_eq (all hmem), ?_⟩⟩
  refine Component.judged_evaluate fun kind hrequired => ?_
  rcases ofComponents_ok_iff.1 accepted with ⟨-, produced, -⟩
  exact (domain kind).2 (produced component hmem kind hrequired)

theorem eq_run_of_solves (accepted : ofComponents components = .ok schedule)
    (artifacts : List Artifact) {findings : Findings}
    (h : Solves components (Artifact.latest? artifacts) findings) :
    findings = (schedule.run artifacts).findings := by
  rcases settled_of_ofComponents accepted with ⟨settled, all⟩
  apply Findings.ext
  intro kind
  cases hproducer : producer? components kind with
  | some component =>
    rcases mem_of_producer? hproducer with ⟨hmem, rfl⟩
    exact h.outcome?_eq_run settled (all hmem)
  | none =>
    have hnone := producer?_eq_none_iff.1 hproducer
    rw [h.outcome?_eq_none hnone, (solves_run accepted artifacts).outcome?_eq_none hnone]

/-- The findings of a run are the one solution of the rule of evaluation over themselves, and a
failure that is passed on quotes its cause. -/
theorem eq_run_findings_iff_solves (accepted : ofComponents components = .ok schedule)
    (artifacts : List Artifact) (findings : Findings) :
    (findings = (schedule.run artifacts).findings ↔
      Solves components (Artifact.latest? artifacts) findings) ∧
    ∀ kind cause, (Failure.inherited kind cause).message =
      "required fact `" ++ kind.name ++ "` failed: " ++ cause.message := by
  refine ⟨⟨?_, eq_run_of_solves accepted artifacts⟩, fun kind cause => rfl⟩
  intro heq
  rw [heq]
  exact solves_run accepted artifacts

theorem builtins_findings_solve :
    ofComponents Component.builtins = .ok ⟨Component.builtins⟩ ∧
    Solves Component.builtins
      (Artifact.latest? [Artifact.ofText .inventory "Memory Device\n\tSize: 1.5 GB"])
      ((⟨Component.builtins⟩ : Schedule).run
        [Artifact.ofText .inventory "Memory Device\n\tSize: 1.5 GB"]).findings :=
  ⟨ofComponents_builtins,
    (eq_run_findings_iff_solves ofComponents_builtins _ _).1.1 rfl⟩

end Schedule

end HostSurvey
