import HostSurvey.Proofs.Run.Invocation

/-!
# What the built-in derivations come to

A built-in derivation that is invoked has found all that it asks for, so that what it comes to is
told by what it reads. It asks for nothing that its component does not declare, and its facts are of
its component's kind. Only that of the installed memory can break off.
-/

namespace HostSurvey

/-- Every fact is found under its own kind. -/
def Findings.Typed (findings : Findings) : Prop :=
  ∀ kind fact, findings.outcome? kind = some (.found fact) → fact.kind = kind

/-- The form that facts of a kind have. -/
def Fact.HasForm (fact : Fact) : Kind → Prop
  | .reading .performanceLog => ∃ value, fact = performanceLog value
  | .reading .inventory => ∃ value, fact = inventory value
  | .reading .repoTable => ∃ value, fact = repoTable value
  | .reading .releaseStatement => ∃ value, fact = releaseStatement value
  | .reading .kernelIdentity => ∃ value, fact = kernelIdentity value
  | .reading .pinnedRelease => ∃ value, fact = pinnedRelease value
  | .distribution => ∃ value, fact = distribution value
  | .memory => ∃ value, fact = memory value
  | .subscription => ∃ value, fact = subscription value
  | .utilization => ∃ value, fact = utilization value

theorem Fact.hasForm_kind (fact : Fact) : fact.HasForm fact.kind := by
  cases fact <;> exact ⟨_, rfl⟩

theorem Findings.Typed.hasForm {findings : Findings} (typed : findings.Typed) {kind : Kind}
    {fact : Fact} (found : findings.outcome? kind = some (.found fact)) : fact.HasForm kind := by
  have hform := fact.hasForm_kind
  rw [typed kind fact found] at hform
  exact hform

namespace Component

variable {component : Component} {artifacts : Category → Option Artifact} {findings : Findings}

/-! ## What a derivation sees -/

theorem inputs_artifact {category : Category} {artifact : Artifact}
    (declared : component.declares (.artifact category) = true)
    (supplied : artifacts category = some artifact) :
    (component.inputs artifacts findings).artifact category = .ok artifact := by
  simp [inputs, Inputs.artifact, Inputs.demand, declared, supplied]

theorem inputs_artifact? {category : Category}
    (declared : component.declares (.artifact category) = true) :
    (component.inputs artifacts findings).artifact? category = artifacts category := by
  simp [inputs, Inputs.artifact?, declared]

theorem inputs_fact {α : Type} {kind : Kind} {fact : Fact} {value? : Fact → Option α} {value : α}
    (declared : component.declares (.fact kind) = true)
    (found : findings.outcome? kind = some (.found fact)) (hvalue : value? fact = some value) :
    (component.inputs artifacts findings).fact kind value? = .ok value := by
  simp [inputs, Inputs.fact, Inputs.demand, declared, Findings.fact?, found, Outcome.fact?, hvalue]

theorem inputs_fact? {α : Type} {kind : Kind} {value? : Fact → Option α}
    (declared : component.declares (.fact kind) = true) :
    (component.inputs artifacts findings).fact? kind value? =
      (findings.fact? kind).bind value? := by
  simp [inputs, Inputs.fact?, declared]

/-! ## The derivations -/

theorem derive_reading {category : Category} {artifact : Artifact}
    (supplied : artifacts category = some artifact) :
    (reading category).derive ((reading category).inputs artifacts findings) =
      match Fact.ofLines? category artifact.lines with
      | none => .ok (.abstained artifact.emptyMessage)
      | some fact => .ok (.produced fact) := by
  have declared : (reading category).declares (.artifact category) = true := by
    simp [declares, reading]
  show readingOf _ category = _
  rw [readingOf, inputs_artifact declared supplied]
  rfl

theorem derive_memory {inventory : Inventory}
    (found : findings.outcome? (.reading .inventory) = some (.found (.inventory inventory))) :
    memory.derive (memory.inputs artifacts findings) =
      match InstalledMemory.ofSizes (moduleSizes inventory) with
      | .error cause => .error (.memory cause)
      | .ok none => .ok (.abstained "no memory module with a recognized size")
      | .ok (some size) => .ok (.produced (.memory size)) := by
  have hfact : (memory.inputs artifacts findings).fact (.reading .inventory) Fact.inventory? =
      .ok inventory := inputs_fact (by decide) found rfl
  show ((memory.inputs artifacts findings).fact (.reading .inventory) Fact.inventory? >>= _) = _
  rw [hfact]
  rfl

/-- The architecture that findings and artifacts tell. -/
def knownArch? (artifacts : Category → Option Artifact) (findings : Findings) : Option String :=
  (((findings.fact? (.reading .kernelIdentity)).bind Fact.kernelIdentity?).bind (·.arch)).or
    ((artifacts .releaseStatement).bind (·.metadata.arch))

theorem derive_distribution {statement : ReleaseStatement}
    (found : findings.outcome? (.reading .releaseStatement) =
      some (.found (.releaseStatement statement))) :
    distribution.derive (distribution.inputs artifacts findings) =
      match knownArch? artifacts findings with
      | none => .ok (.abstained "architecture is unknown")
      | some arch => .ok (.produced (.distribution (Distribution.ofStatement statement arch))) := by
  have hfact : (distribution.inputs artifacts findings).fact (.reading .releaseStatement)
      Fact.releaseStatement? = .ok statement := inputs_fact (by decide) found rfl
  have harch : archOf? (distribution.inputs artifacts findings) =
      knownArch? artifacts findings := by
    rw [archOf?, inputs_fact? (by decide), inputs_artifact? (by decide)]
    rfl
  rw [← harch]
  show ((distribution.inputs artifacts findings).fact (.reading .releaseStatement)
    Fact.releaseStatement? >>= _) = _
  rw [hfact]
  rfl

theorem derive_subscription {host : Distribution} {table : RepoTable}
    (found : findings.outcome? .distribution = some (.found (.distribution host)))
    (tabled : findings.outcome? (.reading .repoTable) = some (.found (.repoTable table))) :
    subscription.derive (subscription.inputs artifacts findings) =
      match Subscription.classify? host table
        ((findings.fact? (.reading .pinnedRelease)).bind Fact.pinnedRelease?) with
      | none => .ok (.abstained (unnamedMessage host))
      | some subscription => .ok (.produced (.subscription subscription)) := by
  have hhost : (subscription.inputs artifacts findings).fact .distribution Fact.distribution? =
      .ok host := inputs_fact (by decide) found rfl
  have htable : (subscription.inputs artifacts findings).fact (.reading .repoTable)
      Fact.repoTable? = .ok table := inputs_fact (by decide) tabled rfl
  have hpinned : (subscription.inputs artifacts findings).fact? (.reading .pinnedRelease)
      Fact.pinnedRelease? = (findings.fact? (.reading .pinnedRelease)).bind Fact.pinnedRelease? :=
    inputs_fact? (by decide)
  rw [← hpinned]
  show ((subscription.inputs artifacts findings).fact .distribution Fact.distribution? >>= _) = _
  rw [hhost]
  show ((subscription.inputs artifacts findings).fact (.reading .repoTable)
    Fact.repoTable? >>= _) = _
  rw [htable]
  rfl

theorem derive_utilization {log : PerformanceLog}
    (found : findings.outcome? (.reading .performanceLog) = some (.found (.performanceLog log))) :
    utilization.derive (utilization.inputs artifacts findings) =
      match Utilization.ofLog? log with
      | none => .ok (.abstained "no utilization metrics in the performance log")
      | some figures => .ok (.produced (.utilization figures)) := by
  have hfact : (utilization.inputs artifacts findings).fact (.reading .performanceLog)
      Fact.performanceLog? = .ok log := inputs_fact (by decide) found rfl
  show ((utilization.inputs artifacts findings).fact (.reading .performanceLog)
    Fact.performanceLog? >>= _) = _
  rw [hfact]
  rfl

/-! ## What they come to -/

/-- What the derivation of a kind may come to: a fact of the kind, an abstention or, for the
installed memory, sizes that cannot be added up. -/
inductive Sound : Kind → Except Fault Derivation → Prop
  | produced (fact : Fact) : Sound fact.kind (.ok (.produced fact))
  | abstained (kind : Kind) (reason : String) : Sound kind (.ok (.abstained reason))
  | memory (cause : InstalledMemory.Error) : Sound .memory (.error (.memory cause))

theorem exists_form_of_met {kind : Kind} (typed : findings.Typed)
    (met : Met artifacts findings (.fact kind)) :
    ∃ fact : Fact, findings.outcome? kind = some (.found fact) ∧ fact.HasForm kind := by
  cases met with
  | @fact kind fact found => exact ⟨fact, found, typed.hasForm found⟩

-- One case for each built-in component, whose requirements give the facts that it asks for.
theorem sound_derive (typed : findings.Typed) (kind : Kind)
    (met : ∀ required ∈ (builtin kind).requires, Met artifacts findings required) :
    Sound kind ((builtin kind).derive ((builtin kind).inputs artifacts findings)) := by
  cases kind with
  | reading category =>
    have supplied := met (.artifact category) (by simp [builtin, reading])
    cases supplied with
    | artifact supplied =>
      show Sound _ ((reading category).derive ((reading category).inputs artifacts findings))
      rw [derive_reading supplied]
      split
      · exact .abstained _ _
      · next fact hfact =>
        rw [← Fact.kind_of_ofLines? hfact]
        exact .produced fact
  | memory =>
    have hmet := met (.fact (.reading .inventory)) (by simp [builtin, memory])
    rcases exists_form_of_met typed hmet with ⟨_, found, inventory, rfl⟩
    show Sound _ (memory.derive (memory.inputs artifacts findings))
    rw [derive_memory found]
    split
    · exact .memory _
    · exact .abstained _ _
    · exact .produced (.memory _)
  | distribution =>
    have hmet := met (.fact (.reading .releaseStatement)) (by simp [builtin, distribution])
    rcases exists_form_of_met typed hmet with ⟨_, found, statement, rfl⟩
    show Sound _ (distribution.derive (distribution.inputs artifacts findings))
    rw [derive_distribution found]
    split
    · exact .abstained _ _
    · exact .produced (.distribution _)
  | subscription =>
    have hhost := met (.fact .distribution) (by simp [builtin, subscription])
    have htable := met (.fact (.reading .repoTable)) (by simp [builtin, subscription])
    rcases exists_form_of_met typed hhost with ⟨_, found, host, rfl⟩
    rcases exists_form_of_met typed htable with ⟨_, tabled, table, rfl⟩
    show Sound _ (subscription.derive (subscription.inputs artifacts findings))
    rw [derive_subscription found tabled]
    split
    · exact .abstained _ _
    · exact .produced (.subscription _)
  | utilization =>
    have hmet := met (.fact (.reading .performanceLog)) (by simp [builtin, utilization])
    rcases exists_form_of_met typed hmet with ⟨_, found, log, rfl⟩
    show Sound _ (utilization.derive (utilization.inputs artifacts findings))
    rw [derive_utilization found]
    split
    · exact .abstained _ _
    · exact .produced (.utilization _)

/-- Inputs that show the same wherever a component declares something. -/
structure SameView (component : Component) (inputs inputs' : Inputs) : Prop where
  consumer : inputs.consumer = inputs'.consumer
  declares : inputs.declares = inputs'.declares
  artifacts : ∀ category, component.declares (.artifact category) = true →
    inputs.artifacts category = inputs'.artifacts category
  facts : ∀ kind, component.declares (.fact kind) = true → inputs.facts kind = inputs'.facts kind

namespace SameView

variable {shown other : Inputs}

theorem artifact_eq (same : component.SameView shown other) {category : Category}
    (declared : component.declares (.artifact category) = true) :
    shown.artifact category = other.artifact category := by
  simp only [Inputs.artifact, Inputs.demand, same.consumer, same.declares,
    same.artifacts category declared]

theorem fact_eq (same : component.SameView shown other) {α : Type} (kind : Kind)
    (declared : component.declares (.fact kind) = true) (value? : Fact → Option α) :
    shown.fact kind value? = other.fact kind value? := by
  simp only [Inputs.fact, Inputs.demand, same.consumer, same.declares, same.facts kind declared]

theorem fact?_eq (same : component.SameView shown other) {α : Type} (kind : Kind)
    (declared : component.declares (.fact kind) = true) (value? : Fact → Option α) :
    shown.fact? kind value? = other.fact? kind value? := by
  simp only [Inputs.fact?, same.facts kind declared]

end SameView

-- A built-in derivation asks for nothing that its component does not declare.
theorem derive_eq_of_sameView (kind : Kind) {shown other : Inputs}
    (same : (builtin kind).SameView shown other) :
    (builtin kind).derive shown = (builtin kind).derive other := by
  cases kind with
  | reading category =>
    have hartifact : shown.artifact category = other.artifact category :=
      same.artifact_eq (by simp [declares, builtin, reading])
    simp only [builtin, reading, readingOf, hartifact]
  | memory =>
    have hinventory := same.fact_eq (.reading .inventory) (by decide) Fact.inventory?
    simp only [builtin, memory, hinventory]
  | distribution =>
    have hstatement := same.fact_eq (.reading .releaseStatement) (by decide)
      Fact.releaseStatement?
    have hidentity := same.fact?_eq (.reading .kernelIdentity) (by decide)
      Fact.kernelIdentity?
    have hartifact : shown.artifact? .releaseStatement = other.artifact? .releaseStatement :=
      same.artifacts .releaseStatement (by decide)
    simp only [builtin, distribution, archOf?, hstatement, hidentity, hartifact]
  | subscription =>
    have hhost := same.fact_eq .distribution (by decide) Fact.distribution?
    have htable := same.fact_eq (.reading .repoTable) (by decide) Fact.repoTable?
    have hpinned := same.fact?_eq (.reading .pinnedRelease) (by decide) Fact.pinnedRelease?
    simp only [builtin, subscription, hhost, htable, hpinned]
  | utilization =>
    have hlog := same.fact_eq (.reading .performanceLog) (by decide) Fact.performanceLog?
    simp only [builtin, utilization, hlog]

@[simp] theorem produces_builtin (kind : Kind) : (builtin kind).produces = kind := by
  cases kind <;> rfl

theorem mem_builtins_iff : component ∈ builtins ↔ component = builtin component.produces := by
  apply Iff.intro
  · intro h
    have hcases : (∃ category, reading category = component) ∨ component = memory ∨
        component = distribution ∨ component = subscription ∨ component = utilization := by
      simpa [builtins, Category.mem_all] using h
    rcases hcases with ⟨category, rfl⟩ | rfl | rfl | rfl | rfl <;> rfl
  · intro h
    rw [h]
    cases component.produces with
    | reading category =>
      exact List.mem_append_left _ (List.mem_map_of_mem (Category.mem_all category))
    | _ => simp [builtins, builtin]

theorem builtin_mem_builtins (kind : Kind) : builtin kind ∈ builtins :=
  mem_builtins_iff.2 (by rw [produces_builtin])

-- Among built-in components only the one that belongs to a kind produces it.
theorem builtin_produces_mem {components : List Component} (h : components ⊆ builtins)
    (hmem : component ∈ components) : builtin component.produces ∈ components := by
  rw [← mem_builtins_iff.1 (h hmem)]
  exact hmem

end Component

end HostSurvey
