import HostSurvey.Proofs.Run.Invocation

/-!
# Root causes

A component without a fact points to what stands in its way: an absence to a required fact that is
absent, a failure to a required fact that failed. Following these pointers never comes back to a
kind. They end, for an absence, at a derivation that abstained or at an artifact that is missing,
and for a failure at a derivation that was invoked and broke off or gave a fact of another kind,
whose message is at the end of all messages on the way.
-/

namespace HostSurvey

open Schedule

/-! ## Pointers -/

/-- The fact of a kind is absent because a required one is. -/
def Findings.AbsentThrough (findings : Findings) (kind required : Kind) : Prop :=
  findings.outcome? kind = some (.absent (.missingFact required))

/-- The component of a kind failed because a required fact did. -/
def Findings.FailedThrough (findings : Findings) (kind required : Kind) : Prop :=
  ∃ cause, findings.outcome? kind = some (.failed (.inherited required cause))

/-- However far one follows the pointers from a kind, they go on to the root. -/
def LeadsTo (pointer : Kind → Kind → Prop) (kind root : Kind) : Prop :=
  ∀ between, Relation.ReflTransGen pointer kind between → Relation.ReflTransGen pointer between root

/-- A derivation of a run was invoked and came to a result. -/
def Run.Derived (run : Run) (component : Component) (result : Except Fault Derivation) : Prop :=
  ∃ inputs, ⟨component, inputs⟩ ∈ run.invocations ∧ component.derive inputs = result

/-- A failure of a component's own: its derivation was invoked and broke off, or gave a fact of
another kind. -/
inductive Run.AtFault (run : Run) : Component → Failure → Prop
  | faulted {component : Component} {fault : Fault}
      (derived : run.Derived component (.error fault)) :
      AtFault run component (.faulted component.produces fault)
  | wrongKind {component : Component} {fact : Fact}
      (derived : run.Derived component (.ok (.produced fact)))
      (kind : fact.kind ≠ component.produces) :
      AtFault run component (.wrongKind component.produces fact.kind)

/-- An absence that no other one explains: the derivation was invoked and abstained, or a required
artifact is missing. -/
inductive Run.AbsentByItself (run : Run) (artifacts : List Artifact) : Component → Absence → Prop
  | abstained {component : Component} {reason : String}
      (derived : run.Derived component (.ok (.abstained reason))) :
      AbsentByItself run artifacts component (.abstained reason)
  | missingArtifact {component : Component} {category : Category}
      (requires : .artifact category ∈ component.requires)
      (missing : ∀ artifact ∈ artifacts, artifact.category ≠ category) :
      AbsentByItself run artifacts component (.missingArtifact category)

theorem Artifact.latest?_eq_none_iff {artifacts : List Artifact} {category : Category} :
    latest? artifacts category = none ↔ ∀ artifact ∈ artifacts, artifact.category ≠ category := by
  simp [latest?]

namespace Schedule

/-! ## Pointers that lead back along a schedule -/

/-- Where the producer of a kind stands in a schedule. -/
def place (schedule : Schedule) (kind : Kind) : Nat :=
  (schedule.components.map (·.produces)).idxOf kind

section Back

variable {schedule : Schedule}

-- A chain of pointers that lead back along the schedule meets no kind twice.
theorem nodup_of_isChain {pointer : Kind → Kind → Prop}
    (back : ∀ {kind required}, pointer kind required →
      schedule.place required < schedule.place kind)
    {chain : List Kind} (h : chain.IsChain pointer) : chain.Nodup := by
  have hfalls : chain.IsChain fun a b => schedule.place b < schedule.place a :=
    h.imp fun _ _ => back
  have : IsTrans Kind fun a b => schedule.place b < schedule.place a :=
    ⟨fun a b c hab hbc => Nat.lt_trans hbc hab⟩
  refine (List.isChain_iff_pairwise.1 hfalls).imp ?_
  intro a b hlt heq
  rw [heq] at hlt
  exact Nat.lt_irrefl _ hlt

-- Where every kind is an end or points on, back along the schedule and to one kind only, there is
-- an end to which the pointers lead.
theorem exists_leadsTo (pointer : Kind → Kind → Prop) (Known : Kind → Prop) {Ends : Kind → Prop}
    (back : ∀ {kind required}, pointer kind required →
      schedule.place required < schedule.place kind)
    (unique : ∀ {kind a b}, pointer kind a → pointer kind b → a = b)
    (onward : ∀ {kind}, Known kind → (Ends kind ∧ ∀ required, ¬ pointer kind required) ∨
      ∃ required, pointer kind required ∧ Known required)
    {kind : Kind} (h : Known kind) : ∃ root, LeadsTo pointer kind root ∧ Ends root := by
  -- on the place of the kind, which falls along the pointers
  induction hplace : schedule.place kind using Nat.strong_induction_on generalizing kind with
  | _ place ih =>
    rcases onward h with ⟨ends, stuck⟩ | ⟨required, hpointer, hknown⟩
    · refine ⟨kind, fun between path => ?_, ends⟩
      rcases path.cases_head with rfl | ⟨next, hnext, -⟩
      · exact .refl
      · exact absurd hnext (stuck next)
    · have hlt := back hpointer
      rw [hplace] at hlt
      rcases ih _ hlt hknown rfl with ⟨root, leads, ends⟩
      refine ⟨root, fun between path => ?_, ends⟩
      rcases path.cases_head with rfl | ⟨next, hnext, rest⟩
      · exact .head hpointer (leads required .refl)
      · rw [unique hnext hpointer] at rest
        exact leads between rest

end Back

-- A failure that is passed on ends with the text of its cause.
theorem message_isSuffix_inherited (required : Kind) (cause : Failure) :
    cause.message.toList <:+ (Failure.inherited required cause).message.toList := by
  have hmessage : (Failure.inherited required cause).message =
      "required fact `" ++ required.name ++ "` failed: " ++ cause.message := rfl
  rw [hmessage, String.toList_append]
  exact List.suffix_append _ _

/-! ## Absences and failures of a run -/

section Causes

variable {components : List Component} {schedule : Schedule}
  (accepted : ofComponents components = .ok schedule) (artifacts : List Artifact)

include accepted

theorem absent_cases {component : Component} (hmem : component ∈ components) {absence : Absence}
    (h : (schedule.run artifacts).findings.outcome? component.produces = some (.absent absence)) :
    (schedule.run artifacts).AbsentByItself artifacts component absence ∨
      ∃ required, absence = .missingFact required ∧ .fact required ∈ component.requires ∧
        ∃ other, (schedule.run artifacts).findings.outcome? required = some (.absent other) := by
  cases judged_of_outcome? accepted artifacts hmem h with
  | unmet scan met unmet =>
    have hrequired := scan ▸ List.mem_append_right _ List.mem_cons_self
    cases unmet with
    | artifact missing =>
      exact .inl (.missingArtifact hrequired (Artifact.latest?_eq_none_iff.1 missing))
    | absent absent => exact .inr ⟨_, rfl, hrequired, _, absent⟩
  | abstained met abstained =>
    exact .inl (.abstained ⟨_, mem_invocations_of_met accepted artifacts hmem met, abstained⟩)

theorem failed_cases {component : Component} (hmem : component ∈ components) {failure : Failure}
    (h : (schedule.run artifacts).findings.outcome? component.produces = some (.failed failure)) :
    (schedule.run artifacts).AtFault component failure ∨
      ∃ required cause, failure = .inherited required cause ∧ .fact required ∈ component.requires ∧
        (schedule.run artifacts).findings.outcome? required = some (.failed cause) := by
  cases judged_of_outcome? accepted artifacts hmem h with
  | unmet scan met unmet =>
    have hrequired := scan ▸ List.mem_append_right _ List.mem_cons_self
    cases unmet with
    | failed failed => exact .inr ⟨_, _, rfl, hrequired, failed⟩
  | wrongKind met produced kind =>
    exact .inl (.wrongKind ⟨_, mem_invocations_of_met accepted artifacts hmem met, produced⟩ kind)
  | faulted met broken =>
    exact .inl (.faulted ⟨_, mem_invocations_of_met accepted artifacts hmem met, broken⟩)

theorem place_lt_of_required
    {component : Component} (hmem : component ∈ components) {required : Kind}
    (h : .fact required ∈ component.requires) :
    schedule.place required < schedule.place component.produces := by
  rcases ofComponents_ok_iff.1 accepted with ⟨-, produced, -⟩
  rcases produced component hmem required h with ⟨producer, hp, rfl⟩
  rcases settled_of_ofComponents accepted with ⟨settled, all⟩
  exact settled.idxOf_lt_of_edge all ⟨hmem, hp, .inl h⟩

theorem place_lt_of_absentThrough {kind required : Kind}
    (h : (schedule.run artifacts).findings.AbsentThrough kind required) :
    schedule.place required < schedule.place kind := by
  rcases exists_registered accepted artifacts h with ⟨component, hmem, rfl, -⟩
  rcases absent_cases accepted artifacts hmem h with own | ⟨_, hsame, hrequired, -⟩
  · cases own
  · cases hsame
    exact place_lt_of_required accepted hmem hrequired

theorem place_lt_of_failedThrough {kind required : Kind}
    (h : (schedule.run artifacts).findings.FailedThrough kind required) :
    schedule.place required < schedule.place kind := by
  rcases h with ⟨cause, h⟩
  rcases exists_registered accepted artifacts h with ⟨component, hmem, rfl, -⟩
  rcases failed_cases accepted artifacts hmem h with own | ⟨_, _, hsame, hrequired, -⟩
  · cases own
  · cases hsame
    exact place_lt_of_required accepted hmem hrequired

theorem exists_absent_root {kind : Kind} {absence : Absence}
    (h : (schedule.run artifacts).findings.outcome? kind = some (.absent absence)) :
    ∃ root, LeadsTo (schedule.run artifacts).findings.AbsentThrough kind root ∧
      ∃ component cause, schedule.get? root = some component ∧
        (schedule.run artifacts).findings.outcome? root = some (.absent cause) ∧
        (schedule.run artifacts).AbsentByItself artifacts component cause := by
  refine exists_leadsTo (schedule.run artifacts).findings.AbsentThrough
    (fun k => ∃ a, (schedule.run artifacts).findings.outcome? k = some (.absent a))
    (place_lt_of_absentThrough accepted artifacts) ?_ ?_ ⟨absence, h⟩
  · intro kind a b ha hb
    have hsame := ha.symm.trans hb
    cases hsame
    rfl
  · intro kind hknown
    rcases hknown with ⟨absence, h⟩
    rcases exists_registered accepted artifacts h with ⟨component, hmem, rfl, registered⟩
    rcases absent_cases accepted artifacts hmem h with own | ⟨required, rfl, -, other, hother⟩
    · refine .inl ⟨⟨component, absence, registered, h, own⟩, fun required hpointer => ?_⟩
      have hsame := h.symm.trans hpointer
      cases own <;> cases hsame
    · exact .inr ⟨required, h, other, hother⟩

theorem exists_failed_root {kind : Kind} {failure : Failure}
    (h : (schedule.run artifacts).findings.outcome? kind = some (.failed failure)) :
    ∃ root, LeadsTo (schedule.run artifacts).findings.FailedThrough kind root ∧
      ∃ component cause, schedule.get? root = some component ∧
        (schedule.run artifacts).findings.outcome? root = some (.failed cause) ∧
        (schedule.run artifacts).AtFault component cause := by
  refine exists_leadsTo (schedule.run artifacts).findings.FailedThrough
    (fun k => ∃ f, (schedule.run artifacts).findings.outcome? k = some (.failed f))
    (place_lt_of_failedThrough accepted artifacts) ?_ ?_ ⟨failure, h⟩
  · intro kind a b ha hb
    rcases ha with ⟨cause, ha⟩
    rcases hb with ⟨other, hb⟩
    have hsame := ha.symm.trans hb
    cases hsame
    rfl
  · intro kind hknown
    rcases hknown with ⟨failure, h⟩
    rcases exists_registered accepted artifacts h with ⟨component, hmem, rfl, registered⟩
    rcases failed_cases accepted artifacts hmem h with own | ⟨required, cause, rfl, -, hcause⟩
    · refine .inl ⟨⟨component, failure, registered, h, own⟩, fun required hpointer => ?_⟩
      rcases hpointer with ⟨cause, hpointer⟩
      have hsame := h.symm.trans hpointer
      cases own <;> cases hsame
    · exact .inr ⟨required, ⟨cause, h⟩, cause, hcause⟩

theorem message_isSuffix_of_path {kind root : Kind} {failure cause : Failure}
    (path : Relation.ReflTransGen (schedule.run artifacts).findings.FailedThrough kind root)
    (h : (schedule.run artifacts).findings.outcome? kind = some (.failed failure))
    (hroot : (schedule.run artifacts).findings.outcome? root = some (.failed cause)) :
    cause.message.toList <:+ failure.message.toList := by
  induction path using Relation.ReflTransGen.head_induction_on generalizing failure with
  | refl =>
    have hsame := h.symm.trans hroot
    cases hsame
    exact List.suffix_refl _
  | head hpointer rest ih =>
    rcases hpointer with ⟨between, hpointer⟩
    have hsame := h.symm.trans hpointer
    cases hsame
    rcases exists_registered accepted artifacts h with ⟨component, hmem, rfl, -⟩
    rcases failed_cases accepted artifacts hmem h with own | ⟨required, _, heq, -, hcause⟩
    · cases own
    · cases heq
      exact (ih hcause).trans (message_isSuffix_inherited _ _)

end Causes

/-- Every absence and every failure of a run is explained. An absence points to a required fact that
is absent too, and the pointers lead to a derivation that abstained or to a missing artifact. A
failure points to a required fact that failed too, which it quotes, and the pointers lead to a
derivation that was invoked and is at fault, whose text ends all the others. No kind is met
twice. -/
theorem run_outcomes_have_roots {components : List Component} {schedule : Schedule}
    (accepted : ofComponents components = .ok schedule) (artifacts : List Artifact) :
    (∀ kind required, (schedule.run artifacts).findings.AbsentThrough kind required →
      ∃ component producer other, schedule.get? kind = some component ∧
        .fact required ∈ component.requires ∧ schedule.get? required = some producer ∧
        (schedule.run artifacts).findings.outcome? required = some (.absent other)) ∧
    (∀ chain : List Kind, chain.IsChain (schedule.run artifacts).findings.AbsentThrough →
      chain.Nodup) ∧
    (∀ kind absence, (schedule.run artifacts).findings.outcome? kind = some (.absent absence) →
      ∃ root, LeadsTo (schedule.run artifacts).findings.AbsentThrough kind root ∧
        ∃ component cause, schedule.get? root = some component ∧
          (schedule.run artifacts).findings.outcome? root = some (.absent cause) ∧
          (schedule.run artifacts).AbsentByItself artifacts component cause) ∧
    (∀ kind failure, (schedule.run artifacts).findings.outcome? kind = some (.failed failure) →
      ∃ component, schedule.get? kind = some component ∧
        ((schedule.run artifacts).AtFault component failure ∨
          ∃ required cause, failure = .inherited required cause ∧
            .fact required ∈ component.requires ∧
            (schedule.run artifacts).findings.outcome? required = some (.failed cause) ∧
            failure.message =
              "required fact `" ++ required.name ++ "` failed: " ++ cause.message)) ∧
    (∀ chain : List Kind, chain.IsChain (schedule.run artifacts).findings.FailedThrough →
      chain.Nodup) ∧
    ∀ kind failure, (schedule.run artifacts).findings.outcome? kind = some (.failed failure) →
      ∃ root, LeadsTo (schedule.run artifacts).findings.FailedThrough kind root ∧
        ∃ component cause, schedule.get? root = some component ∧
          (schedule.run artifacts).findings.outcome? root = some (.failed cause) ∧
          (schedule.run artifacts).AtFault component cause ∧
          ∀ between text, Relation.ReflTransGen
              (schedule.run artifacts).findings.FailedThrough kind between →
            (schedule.run artifacts).findings.outcome? between = some (.failed text) →
            cause.message.toList <:+ text.message.toList := by
  refine ⟨?_, ?_, ?_, ?_, ?_, ?_⟩
  · intro kind required h
    rcases exists_registered accepted artifacts h with ⟨component, hmem, rfl, registered⟩
    rcases absent_cases accepted artifacts hmem h with own | ⟨_, hsame, hrequired, other, hother⟩
    · cases own
    · cases hsame
      rcases exists_registered accepted artifacts hother with ⟨producer, -, -, hproducer⟩
      exact ⟨component, producer, other, registered, hrequired, hproducer, hother⟩
  · intro chain h
    exact nodup_of_isChain (place_lt_of_absentThrough accepted artifacts) h
  · intro kind absence h
    exact exists_absent_root accepted artifacts h
  · intro kind failure h
    rcases exists_registered accepted artifacts h with ⟨component, hmem, rfl, registered⟩
    refine ⟨component, registered, ?_⟩
    rcases failed_cases accepted artifacts hmem h with
      own | ⟨required, cause, rfl, hrequired, hcause⟩
    · exact .inl own
    · exact .inr ⟨required, cause, rfl, hrequired, hcause, rfl⟩
  · intro chain h
    exact nodup_of_isChain (place_lt_of_failedThrough accepted artifacts) h
  · intro kind failure h
    rcases exists_failed_root accepted artifacts h with
      ⟨root, leads, component, cause, registered, hroot, fault⟩
    refine ⟨root, leads, component, cause, registered, hroot, fault, ?_⟩
    intro between text path htext
    exact message_isSuffix_of_path accepted artifacts (leads between path) htext hroot

/-- A reading of the inventory that gives up with a message. -/
def unreadableInventory : Component :=
  { Component.reading .inventory with derive := fun _ => .error (.stated "unreadable") }

theorem memory_failure_has_root :
    ofComponents [Component.memory, unreadableInventory] =
      .ok ⟨[unreadableInventory, Component.memory]⟩ ∧
    LeadsTo ((⟨[unreadableInventory, Component.memory]⟩ : Schedule).run
      [Artifact.ofText .inventory "Memory Device"]).findings.FailedThrough
      .memory (.reading .inventory) := by
  have accepted : ofComponents [Component.memory, unreadableInventory] =
      .ok ⟨[unreadableInventory, Component.memory]⟩ :=
    ofComponents_of_walk (by decide) (by decide) (by cbv)
  refine ⟨accepted, ?_⟩
  rcases run_outcomes_have_roots accepted [Artifact.ofText .inventory "Memory Device"] with
    ⟨-, -, -, -, -, roots⟩
  have hfailed : ((⟨[unreadableInventory, Component.memory]⟩ : Schedule).run
      [Artifact.ofText .inventory "Memory Device"]).findings.outcome? .memory =
        some (.failed (.inherited (.reading .inventory)
          (.faulted (.reading .inventory) (.stated "unreadable")))) := rfl
  rcases roots _ _ hfailed with ⟨root, leads, component, cause, registered, hroot, fault, -⟩
  rcases (get?_eq_some_iff accepted).1 registered with ⟨hmem, rfl⟩
  have hcases : component = Component.memory ∨ component = unreadableInventory := by
    simpa using hmem
  rcases hcases with rfl | rfl
  · -- the installed memory only passes the failure on
    have hsame := hfailed.symm.trans hroot
    cases hsame
    cases fault
  · exact leads

end Schedule

end HostSurvey
