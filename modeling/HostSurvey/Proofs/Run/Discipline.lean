import HostSurvey.Proofs.Run.Invocation

/-!
# What a run invokes and what its findings hold

The derivations that a run invokes are those of the ready components, in the order of the schedule
and each of them once. A component that is not ready plays no part through its derivation: another
derivation in its place gives the same findings. The findings have one outcome for each component,
and a fact that they hold can be read as the value of its kind.
-/

namespace HostSurvey

open Schedule

/-! ## Ready components -/

/-- The artifacts that a component requires were supplied, and the facts that it requires are
found. -/
structure Component.Ready (component : Component) (artifacts : List Artifact)
    (findings : Findings) : Prop where
  supplied : ∀ category, .artifact category ∈ component.requires →
    ∃ artifact ∈ artifacts, artifact.category = category
  found : ∀ kind, .fact kind ∈ component.requires →
    ∃ fact, findings.outcome? kind = some (.found fact)

theorem Artifact.isSome_latest?_iff {artifacts : List Artifact} {category : Category} :
    (latest? artifacts category).isSome = true ↔
      ∃ artifact ∈ artifacts, artifact.category = category := by
  unfold latest?
  simp

theorem Component.ready_iff_met {component : Component} {artifacts : List Artifact}
    {findings : Findings} :
    component.Ready artifacts findings ↔ ∀ required ∈ component.requires,
      Component.Met (Artifact.latest? artifacts) findings required := by
  apply Iff.intro
  · intro ready required hrequired
    cases required with
    | artifact category =>
      have supplied := Artifact.isSome_latest?_iff.2 (ready.supplied category hrequired)
      exact .artifact (Option.some_get supplied).symm
    | fact kind =>
      have hfound := ready.found kind hrequired
      rcases hfound with ⟨fact, found⟩
      exact .fact found
  · intro met
    apply Component.Ready.mk
    · intro category hrequired
      cases met _ hrequired with
      | artifact supplied => exact Artifact.isSome_latest?_iff.1 (by rw [supplied]; rfl)
    · intro kind hrequired
      cases met _ hrequired with
      | fact found => exact ⟨_, found⟩

instance (component : Component) (artifacts : List Artifact) (findings : Findings) :
    Decidable (component.Ready artifacts findings) :=
  decidable_of_iff (component.blocked? (Artifact.latest? artifacts) findings = none)
    (Component.blocked?_eq_none_iff.trans Component.ready_iff_met.symm)

theorem Run.invocation?_eq_ite (artifacts : List Artifact) (findings : Findings)
    (component : Component) :
    invocation? (Artifact.latest? artifacts) findings component =
      if component.Ready artifacts findings then
        some ⟨component, component.inputs (Artifact.latest? artifacts) findings⟩
      else none := by
  by_cases ready : component.Ready artifacts findings
  · rw [if_pos ready, Run.invocation?_eq_some_iff]
    exact ⟨Component.ready_iff_met.1 ready, rfl⟩
  · rw [if_neg ready, Option.eq_none_iff_forall_ne_some]
    intro invocation h
    exact ready (Component.ready_iff_met.2 (Run.invocation?_eq_some_iff.1 h).1)

namespace Schedule

section Invocations

variable {components : List Component} {schedule : Schedule}
  (accepted : ofComponents components = .ok schedule) (artifacts : List Artifact)

include accepted

theorem invocations_eq_map_filter :
    (schedule.run artifacts).invocations =
      (schedule.components.filter fun component =>
        component.Ready artifacts (schedule.run artifacts).findings).map fun component =>
          ⟨component, component.inputs (Artifact.latest? artifacts)
            (schedule.run artifacts).findings⟩ := by
  have settled := (settled_of_ofComponents accepted).1
  have hinvocations : (schedule.run artifacts).invocations = schedule.components.filterMap
      (Run.invocation? (Artifact.latest? artifacts) (schedule.run artifacts).findings) :=
    settled.invocations_eq
  rw [hinvocations]
  generalize (schedule.run artifacts).findings = findings
  induction schedule.components with
  | nil => rfl
  | cons component rest ih =>
    rw [List.filterMap_cons, Run.invocation?_eq_ite, ih]
    by_cases ready : component.Ready artifacts findings
    · simp [ready]
    · simp [ready]

-- No kind has two producers, so an invocation is told by the kind of its component.
theorem count_invocations {component : Component} (hmem : component ∈ components) :
    ((schedule.run artifacts).invocations.map (·.component.produces)).count component.produces =
      if component.Ready artifacts (schedule.run artifacts).findings then 1 else 0 := by
  have unique := (settled_of_ofComponents accepted).1.uniqueProducers
  have hc := (perm_of_ofComponents accepted).mem_iff.2 hmem
  have hkinds : (schedule.run artifacts).invocations.map (·.component.produces) =
      (schedule.components.filter fun component =>
        component.Ready artifacts (schedule.run artifacts).findings).map (·.produces) := by
    rw [invocations_eq_map_filter accepted, List.map_map]
    rfl
  rw [hkinds]
  by_cases ready : component.Ready artifacts (schedule.run artifacts).findings
  · rw [if_pos ready]
    apply List.count_eq_one_of_mem
    · exact unique.sublist (List.filter_sublist.map _)
    · exact List.mem_map_of_mem (List.mem_filter.2 ⟨hc, by simpa using ready⟩)
  · rw [if_neg ready, List.count_eq_zero, List.mem_map]
    intro hinvoked
    rcases hinvoked with ⟨other, hother, hkind⟩
    rcases List.mem_filter.1 hother with ⟨homem, hready⟩
    rw [unique.eq_of_produces_eq homem hc hkind] at hready
    exact ready (by simpa using hready)

end Invocations

/-! ## Another derivation -/

/-- A component with another derivation, if it is the producer of a kind. -/
def rederive (kind : Kind) (derive : Inputs → Except Fault Derivation) (component : Component) :
    Component :=
  if component.produces = kind then { component with derive } else component

section Rederive

variable (kind : Kind) (derive : Inputs → Except Fault Derivation) (component : Component)

@[simp] theorem produces_rederive :
    (rederive kind derive component).produces = component.produces := by
  unfold rederive
  split <;> rfl

@[simp] theorem requires_rederive :
    (rederive kind derive component).requires = component.requires := by
  unfold rederive
  split <;> rfl

@[simp] theorem optional_rederive :
    (rederive kind derive component).optional = component.optional := by
  unfold rederive
  split <;> rfl

theorem dependsOn_rederive {used : Kind} :
    (rederive kind derive component).DependsOn used ↔ component.DependsOn used := by
  simp [Component.DependsOn]

variable {components placed : List Component}

theorem Settled.rederive (h : Settled components placed) :
    Settled (components.map (Schedule.rederive kind derive))
      (placed.map (Schedule.rederive kind derive)) := by
  induction h with
  | nil => exact .nil
  | @snoc placed last earlier mem fresh ready ih =>
    rw [List.map_append, List.map_singleton]
    apply Settled.snoc ih (List.mem_map_of_mem mem)
    · intro other hother
      rcases List.mem_map.1 hother with ⟨before, hbefore, rfl⟩
      simpa using fresh before hbefore
    · intro producer hp hd
      rcases List.mem_map.1 hp with ⟨before, hbefore, rfl⟩
      rw [dependsOn_rederive, produces_rederive] at hd
      exact List.mem_map_of_mem (ready before hbefore hd)

theorem exists_ofComponents_rederive {schedule : Schedule}
    (accepted : ofComponents components = .ok schedule) :
    ∃ changed, ofComponents (components.map (rederive kind derive)) = .ok changed := by
  rcases ofComponents_ok_iff.1 accepted with ⟨unique, produced, -⟩
  rcases settled_of_ofComponents accepted with ⟨settled, all⟩
  apply exists_ofComponents
  · have hkinds : (components.map (rederive kind derive)).map (·.produces) =
        components.map (·.produces) := by simp
    unfold UniqueProducers
    rw [hkinds]
    exact unique
  · intro consumer hc used hrequired
    rcases List.mem_map.1 hc with ⟨before, hbefore, rfl⟩
    rw [requires_rederive] at hrequired
    rcases produced before hbefore used hrequired with ⟨producer, hp, hk⟩
    exact ⟨rederive kind derive producer, List.mem_map_of_mem hp, by simpa using hk⟩
  · exact (settled.rederive kind derive).acyclic (List.map_subset _ all)

end Rederive

-- A component that is not ready is judged by what it requires alone.
theorem judged_rederive {components : List Component} {schedule : Schedule}
    (accepted : ofComponents components = .ok schedule) {artifacts : List Artifact}
    {findings : Findings} {idle component : Component} (hidle : idle ∈ components)
    (hmem : component ∈ components) (not : ¬ idle.Ready artifacts findings)
    (derive : Inputs → Except Fault Derivation) {outcome : Outcome}
    (judged : component.Judged (Artifact.latest? artifacts) findings outcome) :
    (rederive idle.produces derive component).Judged (Artifact.latest? artifacts) findings
      outcome := by
  rcases ofComponents_ok_iff.1 accepted with ⟨unique, -, -⟩
  by_cases hkind : component.produces = idle.produces
  · rcases unique.eq_of_produces_eq hmem hidle hkind with rfl
    rw [Component.ready_iff_met] at not
    cases judged with
    | unmet scan met unmet => exact .unmet (by rw [requires_rederive]; exact scan) met unmet
    | found met produced kind => exact absurd met not
    | wrongKind met produced kind => exact absurd met not
    | abstained met abstained => exact absurd met not
    | faulted met broken => exact absurd met not
  · rw [rederive, if_neg hkind]
    exact judged

theorem run_findings_rederive {components : List Component} {schedule changed : Schedule}
    (accepted : ofComponents components = .ok schedule) (artifacts : List Artifact)
    {idle : Component} (hidle : idle ∈ components)
    (not : ¬ idle.Ready artifacts (schedule.run artifacts).findings)
    (derive : Inputs → Except Fault Derivation)
    (accepted' : ofComponents (components.map (rederive idle.produces derive)) = .ok changed) :
    (schedule.run artifacts).findings = (changed.run artifacts).findings := by
  have solves := solves_run accepted artifacts
  apply eq_run_of_solves accepted' artifacts
  apply Solves.mk
  · intro kind
    rw [solves.domain]
    simp
  · intro component hmem
    rcases List.mem_map.1 hmem with ⟨before, hbefore, rfl⟩
    rcases solves.judged before hbefore with ⟨outcome, houtcome, judged⟩
    refine ⟨outcome, by rw [produces_rederive]; exact houtcome, ?_⟩
    exact judged_rederive accepted hidle hbefore not derive judged

end Schedule

/-! ## The outcomes of findings -/

theorem Outcome.one_test (outcome : Outcome) :
    (if outcome.isFound then 1 else 0) + (if outcome.isAbsent then 1 else 0) +
      (if outcome.isFailed then 1 else 0) = 1 := by
  cases outcome <;> rfl

-- Every outcome is counted as found, absent or failed, and as one of them only.
theorem Findings.count_add_count_add_count (findings : Findings) :
    findings.count Outcome.isFound + findings.count Outcome.isAbsent +
      findings.count Outcome.isFailed = findings.toList.length := by
  have hcount : ∀ test, findings.count test = findings.toList.countP fun entry => test entry.2 :=
    fun _ => rfl
  rw [hcount, hcount, hcount]
  induction findings.toList with
  | nil => rfl
  | cons entry rest ih =>
    have hone := entry.2.one_test
    simp only [List.countP_cons, List.length_cons]
    omega

theorem Findings.mem_toList {findings : Findings} {kind : Kind} {outcome : Outcome} :
    (kind, outcome) ∈ findings.toList ↔ findings.outcome? kind = some outcome := by
  unfold toList
  simp [List.mem_filterMap, Kind.mem_all]

theorem Findings.map_fst_toList (findings : Findings) :
    findings.toList.map (·.1) = Kind.all.filter fun kind => (findings.outcome? kind).isSome := by
  unfold Findings.toList
  induction Kind.all with
  | nil => rfl
  | cons kind rest ih =>
    rw [List.filterMap_cons, List.filter_cons]
    cases findings.outcome? kind with
    | none => simpa using ih
    | some outcome => simpa using ih

theorem Schedule.kinds_run_perm {components : List Component} {schedule : Schedule}
    (accepted : ofComponents components = .ok schedule) (artifacts : List Artifact) :
    ((schedule.run artifacts).findings.toList.map (·.1)).Perm
      (schedule.components.map (·.produces)) := by
  have unique := (settled_of_ofComponents accepted).1.uniqueProducers
  rw [Findings.map_fst_toList]
  apply (List.perm_ext_iff_of_nodup (Kind.nodup_all.filter _) unique).2
  intro kind
  rw [List.mem_filter, (solves_run accepted artifacts).domain, List.mem_map]
  simp only [Kind.mem_all, true_and, (perm_of_ofComponents accepted).mem_iff]

/-! ## Reading facts -/

/-- How facts of a kind are read as values. -/
inductive Fact.ReadAs : Kind → {α : Type} → (Fact → Option α) → Prop
  | performanceLog : ReadAs (.reading .performanceLog) performanceLog?
  | inventory : ReadAs (.reading .inventory) inventory?
  | repoTable : ReadAs (.reading .repoTable) repoTable?
  | releaseStatement : ReadAs (.reading .releaseStatement) releaseStatement?
  | kernelIdentity : ReadAs (.reading .kernelIdentity) kernelIdentity?
  | pinnedRelease : ReadAs (.reading .pinnedRelease) pinnedRelease?
  | distribution : ReadAs .distribution distribution?
  | memory : ReadAs .memory memory?
  | subscription : ReadAs .subscription subscription?
  | utilization : ReadAs .utilization utilization?

theorem Fact.ReadAs.isSome_iff {kind : Kind} {α : Type} {value? : Fact → Option α}
    (h : ReadAs kind value?) (fact : Fact) : (value? fact).isSome = true ↔ fact.kind = kind := by
  cases h <;> cases fact <;> simp [Fact.kind, performanceLog?, inventory?, repoTable?,
    releaseStatement?, kernelIdentity?, pinnedRelease?, distribution?, memory?, subscription?,
    utilization?]

theorem Schedule.isSome_fact?_bind_iff {components : List Component} {schedule : Schedule}
    (accepted : ofComponents components = .ok schedule) (artifacts : List Artifact) {kind : Kind}
    {α : Type} {value? : Fact → Option α} (h : Fact.ReadAs kind value?) :
    (((schedule.run artifacts).findings.fact? kind).bind value?).isSome = true ↔
      ∃ fact, (schedule.run artifacts).findings.outcome? kind = some (.found fact) := by
  unfold Findings.fact?
  cases houtcome : (schedule.run artifacts).findings.outcome? kind with
  | none => simp
  | some outcome =>
    cases outcome with
    | absent absence => simp [Outcome.fact?]
    | failed failure => simp [Outcome.fact?]
    | found fact =>
      have hkind := kind_of_found accepted artifacts houtcome
      simp [Outcome.fact?, (h.isSome_iff fact).2 hkind]

namespace Schedule

/-- A run invokes the ready components in the order of the schedule, each of them once and with what
it sees of the finished findings, and no others: their derivations make no difference. The findings
hold one outcome for each component, which is counted once, and a fact that is found can be read as
a value of its kind. -/
theorem run_invokes_ready_components {components : List Component} {schedule : Schedule}
    (accepted : ofComponents components = .ok schedule) (artifacts : List Artifact) :
    ((schedule.run artifacts).invocations =
      (schedule.components.filter fun component =>
        component.Ready artifacts (schedule.run artifacts).findings).map fun component =>
          ⟨component, component.inputs (Artifact.latest? artifacts)
            (schedule.run artifacts).findings⟩) ∧
    (∀ component ∈ components,
      ((schedule.run artifacts).invocations.map (·.component.produces)).count component.produces =
        if component.Ready artifacts (schedule.run artifacts).findings then 1 else 0) ∧
    (∀ component ∈ components, ¬ component.Ready artifacts (schedule.run artifacts).findings →
      ∀ derive, ∃ changed,
        ofComponents (components.map (rederive component.produces derive)) = .ok changed ∧
        (schedule.run artifacts).findings = (changed.run artifacts).findings) ∧
    ((schedule.run artifacts).findings.toList.map (·.1)).Perm
      (schedule.components.map (·.produces)) ∧
    (∀ kind, ((schedule.run artifacts).findings.outcome? kind).isSome ↔
      ∃ component ∈ components, component.produces = kind) ∧
    (schedule.run artifacts).findings.count Outcome.isFound +
        (schedule.run artifacts).findings.count Outcome.isAbsent +
        (schedule.run artifacts).findings.count Outcome.isFailed =
      (schedule.run artifacts).findings.toList.length ∧
    (schedule.run artifacts).findings.toList.length = schedule.components.length ∧
    (∀ kind fact, (schedule.run artifacts).findings.outcome? kind = some (.found fact) →
      fact.kind = kind) ∧
    ∀ kind (α : Type) (value? : Fact → Option α), Fact.ReadAs kind value? →
      ((((schedule.run artifacts).findings.fact? kind).bind value?).isSome = true ↔
        ∃ fact, (schedule.run artifacts).findings.outcome? kind = some (.found fact)) := by
  refine ⟨invocations_eq_map_filter accepted artifacts, ?_, ?_, kinds_run_perm accepted artifacts,
    (solves_run accepted artifacts).domain, Findings.count_add_count_add_count _, ?_, ?_, ?_⟩
  · intro component hmem
    exact count_invocations accepted artifacts hmem
  · intro component hmem not derive
    rcases exists_ofComponents_rederive component.produces derive accepted with
      ⟨changed, accepted'⟩
    exact ⟨changed, accepted', run_findings_rederive accepted artifacts hmem not derive accepted'⟩
  · have hlength := (kinds_run_perm accepted artifacts).length_eq
    rw [List.length_map, List.length_map] at hlength
    exact hlength
  · intro kind fact found
    exact kind_of_found accepted artifacts found
  · intro kind α value? h
    exact isSome_fact?_bind_iff accepted artifacts h

/-- A reading of the inventory that gives a fact of another kind. -/
def misproducingInventory : Component :=
  { Component.reading .inventory with
    derive := fun _ => .ok (.produced (.memory InstalledMemory.zero)) }

/-- The fact of another kind is not found under that kind either, as its component is not invoked. -/
theorem misproduced_fact_is_not_found :
    ofComponents [Component.memory, misproducingInventory, Component.reading .kernelIdentity] =
      .ok ⟨[misproducingInventory, Component.memory, Component.reading .kernelIdentity]⟩ ∧
    (((⟨[misproducingInventory, Component.memory, Component.reading .kernelIdentity]⟩ :
      Schedule).run [Artifact.ofText .inventory "Memory Device"]).invocations.map
        (·.component.produces)).count .memory = 0 ∧
    ¬ ((((⟨[misproducingInventory, Component.memory, Component.reading .kernelIdentity]⟩ :
      Schedule).run [Artifact.ofText .inventory "Memory Device"]).findings.fact? .memory).bind
        Fact.memory?).isSome = true := by
  have accepted : ofComponents [Component.memory, misproducingInventory,
      Component.reading .kernelIdentity] =
    .ok ⟨[misproducingInventory, Component.memory, Component.reading .kernelIdentity]⟩ :=
    ofComponents_of_walk (by decide) (by decide) (by cbv)
  rcases run_invokes_ready_components accepted [Artifact.ofText .inventory "Memory Device"] with
    ⟨-, invoked, -, -, -, -, -, -, read⟩
  refine ⟨accepted, ?_, ?_⟩
  · rw [show Kind.memory = Component.memory.produces from rfl,
      invoked Component.memory List.mem_cons_self]
    rfl
  · rw [read .memory InstalledMemory Fact.memory? .memory]
    intro hfound
    rcases hfound with ⟨fact, found⟩
    cases found

end Schedule

end HostSurvey
