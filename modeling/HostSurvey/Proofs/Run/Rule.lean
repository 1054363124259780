import HostSurvey.Proofs.Schedule.Dependence

/-!
# The rule of evaluation

`Judged` says, without the functions that compute it, which outcome a component has over given
artifacts and findings: the first required dependency that is not met decides, and when all are met
the derivation does. `evaluate` follows the rule, and it looks at nothing but what the component
declares (`evaluate_congr`).
-/

namespace HostSurvey.Component

section Rule

variable (artifacts : Category → Option Artifact) (findings : Findings)

/-- A required dependency that is there. -/
inductive Met : Dependency → Prop
  | artifact {category : Category} {artifact : Artifact}
      (supplied : artifacts category = some artifact) : Met (.artifact category)
  | fact {kind : Kind} {fact : Fact} (found : findings.outcome? kind = some (.found fact)) :
      Met (.fact kind)

/-- A required dependency that is not there, with the outcome that it decides. -/
inductive Unmet : Dependency → Outcome → Prop
  | artifact {category : Category} (missing : artifacts category = none) :
      Unmet (.artifact category) (.absent (.missingArtifact category))
  | failed {kind : Kind} {cause : Failure}
      (failed : findings.outcome? kind = some (.failed cause)) :
      Unmet (.fact kind) (.failed (.inherited kind cause))
  | absent {kind : Kind} {absence : Absence}
      (absent : findings.outcome? kind = some (.absent absence)) :
      Unmet (.fact kind) (.absent (.missingFact kind))

/-- The outcome of a component over artifacts and findings. Its required dependencies are scanned in
the order in which they are declared. -/
inductive Judged (component : Component) : Outcome → Prop
  | unmet {before after : List Dependency} {dependency : Dependency} {outcome : Outcome}
      (scan : component.requires = before ++ dependency :: after)
      (met : ∀ earlier ∈ before, Met artifacts findings earlier)
      (unmet : Unmet artifacts findings dependency outcome) : Judged component outcome
  | found {fact : Fact} (met : ∀ required ∈ component.requires, Met artifacts findings required)
      (produced : component.derive (component.inputs artifacts findings) = .ok (.produced fact))
      (kind : fact.kind = component.produces) : Judged component (.found fact)
  | wrongKind {fact : Fact}
      (met : ∀ required ∈ component.requires, Met artifacts findings required)
      (produced : component.derive (component.inputs artifacts findings) = .ok (.produced fact))
      (kind : fact.kind ≠ component.produces) :
      Judged component (.failed (.wrongKind component.produces fact.kind))
  | abstained {reason : String}
      (met : ∀ required ∈ component.requires, Met artifacts findings required)
      (abstained : component.derive (component.inputs artifacts findings) =
        .ok (.abstained reason)) : Judged component (.absent (.abstained reason))
  | faulted {fault : Fault} (met : ∀ required ∈ component.requires, Met artifacts findings required)
      (broken : component.derive (component.inputs artifacts findings) = .error fault) :
      Judged component (.failed (.faulted component.produces fault))

end Rule

variable {artifacts : Category → Option Artifact} {findings : Findings} {component : Component}

/-! ## Obstacles -/

theorem obstacle?_eq_none_iff {dependency : Dependency} :
    obstacle? artifacts findings dependency = none ↔ Met artifacts findings dependency := by
  cases dependency with
  | artifact category =>
    rw [obstacle?]
    cases h : artifacts category with
    | none =>
      apply Iff.intro
      · intro hno; cases hno
      · intro hmet
        rcases hmet with ⟨supplied⟩
        rw [h] at supplied
        cases supplied
    | some artifact => exact ⟨fun _ => .artifact h, fun _ => rfl⟩
  | fact kind =>
    rw [obstacle?]
    apply Iff.intro
    · intro hno
      split at hno
      · next fact h => exact .fact h
      all_goals cases hno
    · intro hmet
      cases hmet with
      | fact found => rw [found]

theorem obstacle?_of_unmet {dependency : Dependency} {outcome : Outcome}
    (h : Unmet artifacts findings dependency outcome) :
    obstacle? artifacts findings dependency = some outcome := by
  cases h with
  | artifact missing => rw [obstacle?, missing]; rfl
  | failed failed => rw [obstacle?, failed]
  | absent absent => rw [obstacle?, absent]

-- Where every required fact has an outcome, an obstacle is a dependency that is not met.
theorem unmet_of_obstacle? {dependency : Dependency} {outcome : Outcome}
    (covered : ∀ kind, dependency = .fact kind → (findings.outcome? kind).isSome)
    (h : obstacle? artifacts findings dependency = some outcome) :
    Unmet artifacts findings dependency outcome := by
  cases dependency with
  | artifact category =>
    rw [obstacle?] at h
    cases hsupplied : artifacts category with
    | none =>
      rw [hsupplied] at h
      cases h
      exact .artifact hsupplied
    | some artifact => rw [hsupplied] at h; cases h
  | fact kind =>
    rw [obstacle?] at h
    split at h
    · cases h
    · next cause hfailed => cases h; exact .failed hfailed
    · next absence habsent => cases h; exact .absent habsent
    · next hnone =>
      -- no outcome at all would be an obstacle too, but there is one
      have hsome := covered kind rfl
      rw [hnone] at hsome
      cases hsome

theorem blocked?_eq_none_iff :
    component.blocked? artifacts findings = none ↔
      ∀ required ∈ component.requires, Met artifacts findings required := by
  unfold blocked?
  rw [List.findSome?_eq_none_iff]
  exact forall₂_congr fun _ _ => obstacle?_eq_none_iff

/-! ## Evaluation follows the rule -/

theorem evaluate_of_met
    (met : ∀ required ∈ component.requires, Met artifacts findings required) :
    component.evaluate artifacts findings =
      component.conclude (component.derive (component.inputs artifacts findings)) := by
  rw [evaluate, blocked?_eq_none_iff.2 met]

theorem judged_evaluate
    (covered : ∀ kind, .fact kind ∈ component.requires → (findings.outcome? kind).isSome) :
    component.Judged artifacts findings (component.evaluate artifacts findings) := by
  cases hblocked : component.blocked? artifacts findings with
  | some outcome =>
    rw [evaluate, hblocked]
    -- the first obstacle splits the requirements where the rule splits them
    rcases List.findSome?_eq_some_iff.1 hblocked with
      ⟨before, dependency, after, scan, hobstacle, hearlier⟩
    refine .unmet scan (fun earlier hmem => obstacle?_eq_none_iff.1 (hearlier earlier hmem)) ?_
    refine unmet_of_obstacle? ?_ hobstacle
    intro kind hkind
    subst hkind
    exact covered kind (scan ▸ List.mem_append_right _ List.mem_cons_self)
  | none =>
    have met := blocked?_eq_none_iff.1 hblocked
    rw [evaluate_of_met met]
    cases hderive : component.derive (component.inputs artifacts findings) with
    | error fault => exact .faulted met hderive
    | ok derivation =>
      cases derivation with
      | abstained reason => exact .abstained met hderive
      | produced fact =>
        rw [conclude]
        by_cases hkind : fact.kind = component.produces
        · rw [if_pos hkind]; exact .found met hderive hkind
        · rw [if_neg hkind]; exact .wrongKind met hderive hkind

-- The rule gives a component one outcome, and that is the computed one.
theorem Judged.evaluate_eq {outcome : Outcome} (h : component.Judged artifacts findings outcome) :
    component.evaluate artifacts findings = outcome := by
  cases h with
  | @unmet before after dependency outcome scan met unmet =>
    have hblocked : component.blocked? artifacts findings = some outcome := by
      refine List.findSome?_eq_some_iff.2 ⟨before, dependency, after, scan, ?_, ?_⟩
      · exact obstacle?_of_unmet unmet
      · exact fun earlier hmem => obstacle?_eq_none_iff.2 (met earlier hmem)
    rw [evaluate, hblocked]
  | found met produced kind => rw [evaluate_of_met met, produced, conclude, if_pos kind]
  | wrongKind met produced kind => rw [evaluate_of_met met, produced, conclude, if_neg kind]
  | abstained met abstained => rw [evaluate_of_met met, abstained, conclude]
  | faulted met broken => rw [evaluate_of_met met, broken, conclude]

/-! ## Evaluation looks at what is declared -/

variable {artifacts' : Category → Option Artifact} {findings' : Findings}

theorem obstacle?_congr {dependency : Dependency}
    (facts : ∀ kind, dependency = .fact kind → findings.outcome? kind = findings'.outcome? kind)
    (supply : ∀ category, dependency = .artifact category →
      artifacts category = artifacts' category) :
    obstacle? artifacts findings dependency = obstacle? artifacts' findings' dependency := by
  cases dependency with
  | artifact category => rw [obstacle?, obstacle?, supply category rfl]
  | fact kind => rw [obstacle?, obstacle?, facts kind rfl]

theorem blocked?_congr
    (facts : ∀ kind, component.DependsOn kind →
      findings.outcome? kind = findings'.outcome? kind)
    (supply : ∀ category, component.declares (.artifact category) = true →
      artifacts category = artifacts' category) :
    component.blocked? artifacts findings = component.blocked? artifacts' findings' := by
  -- the scan is followed over any part of the requirements, for the induction
  have hscan : ∀ dependencies ⊆ component.requires,
      dependencies.findSome? (obstacle? artifacts findings) =
        dependencies.findSome? (obstacle? artifacts' findings') := by
    intro dependencies hsub
    induction dependencies with
    | nil => rfl
    | cons dependency rest ih =>
      rcases List.cons_subset.1 hsub with ⟨hmem, hrest⟩
      have hhead : obstacle? artifacts findings dependency =
          obstacle? artifacts' findings' dependency := by
        refine obstacle?_congr ?_ ?_
        · intro kind hkind
          subst hkind
          exact facts kind (.inl hmem)
        · intro category hcategory
          subst hcategory
          exact supply category (declares_iff.2 (.inl hmem))
      rw [List.findSome?_cons, List.findSome?_cons, hhead, ih hrest]
  exact hscan component.requires (List.Subset.refl _)

-- A derivation sees no more than what its component declares.
theorem inputs_congr
    (facts : ∀ kind, component.DependsOn kind →
      findings.outcome? kind = findings'.outcome? kind)
    (supply : ∀ category, component.declares (.artifact category) = true →
      artifacts category = artifacts' category) :
    component.inputs artifacts findings = component.inputs artifacts' findings' := by
  unfold inputs
  congr 1
  · -- an undeclared artifact is hidden on both sides
    funext category
    by_cases hdeclared : component.declares (.artifact category) = true
    · rw [if_pos hdeclared, if_pos hdeclared, supply category hdeclared]
    · rw [if_neg hdeclared, if_neg hdeclared]
  · -- so is an undeclared fact
    funext kind
    by_cases hdeclared : component.declares (.fact kind) = true
    · rw [if_pos hdeclared, if_pos hdeclared, Findings.fact?, Findings.fact?,
        facts kind (declares_iff.1 hdeclared)]
    · rw [if_neg hdeclared, if_neg hdeclared]

theorem evaluate_congr
    (facts : ∀ kind, component.DependsOn kind →
      findings.outcome? kind = findings'.outcome? kind)
    (supply : ∀ category, component.declares (.artifact category) = true →
      artifacts category = artifacts' category) :
    component.evaluate artifacts findings = component.evaluate artifacts' findings' := by
  rw [evaluate, evaluate, blocked?_congr facts supply, inputs_congr facts supply]

end HostSurvey.Component
