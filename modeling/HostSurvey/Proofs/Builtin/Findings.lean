import HostSurvey.Proofs.Builtin.Derivations
import HostSurvey.Proofs.Run.Locality

/-!
# What the built-in components find

The facts of a run, told by the last artifacts: a reading is found where the last artifact of its
category can be read, and a derived fact where what it is derived from is found and enough.
-/

namespace HostSurvey.Schedule

variable {components : List Component} {schedule : Schedule}
  (accepted : ofComponents components = .ok schedule) (artifacts : List Artifact)

include accepted

theorem typed_run : (schedule.run artifacts).findings.Typed :=
  fun _ _ found => kind_of_found accepted artifacts found

theorem found_reading_iff {category : Category}
    (hmem : Component.reading category ∈ components) {fact : Fact} :
    (schedule.run artifacts).findings.outcome? (.reading category) = some (.found fact) ↔
      ∃ artifact, Artifact.lastOf artifacts category = some artifact ∧
        Fact.ofLines? category artifact.lines = some fact := by
  rw [← Artifact.latest?_eq_lastOf]
  refine (found_iff accepted artifacts hmem).trans ?_
  apply Iff.intro
  · intro h
    rcases h with ⟨met, produced, -⟩
    cases met (.artifact category) (by simp [Component.reading]) with
    | @artifact _ artifact supplied =>
      refine ⟨artifact, supplied, ?_⟩
      rw [Component.derive_reading supplied] at produced
      split at produced
      · cases produced
      · next hfact =>
        cases produced
        exact hfact
  · intro h
    rcases h with ⟨artifact, supplied, hfact⟩
    refine ⟨List.forall_mem_singleton.2 (.artifact supplied), ?_, Fact.kind_of_ofLines? hfact⟩
    rw [Component.derive_reading supplied, hfact]

theorem fact?_reading {category : Category}
    (hmem : Component.reading category ∈ components) :
    (schedule.run artifacts).findings.fact? (.reading category) =
      (Artifact.lastOf artifacts category).bind fun artifact =>
        Fact.ofLines? category artifact.lines := by
  apply Option.ext
  intro fact
  have hfound : (schedule.run artifacts).findings.fact? (.reading category) = some fact ↔
      (schedule.run artifacts).findings.outcome? (.reading category) = some (.found fact) := by
    rw [Findings.fact?, Option.bind_eq_some_iff]
    apply Iff.intro
    · intro h
      rcases h with ⟨outcome, houtcome, hfact⟩
      cases outcome with
      | found value => cases hfact; exact houtcome
      | absent absence => cases hfact
      | failed failure => cases hfact
    · intro h
      exact ⟨_, h, rfl⟩
  rw [hfound, found_reading_iff accepted artifacts hmem, Option.bind_eq_some_iff]

-- A value of a reading is what the lines of the last artifact say.
theorem fact?_reading_bind {category : Category}
    (hmem : Component.reading category ∈ components) {α : Type} {value? : Fact → Option α}
    {ofLines? : List String → Option α}
    (hread : ∀ lines, (Fact.ofLines? category lines).bind value? = ofLines? lines) :
    ((schedule.run artifacts).findings.fact? (.reading category)).bind value? =
      (Artifact.lastOf artifacts category).bind fun artifact => ofLines? artifact.lines := by
  rw [fact?_reading accepted artifacts hmem, Option.bind_assoc]
  simp only [hread]

theorem outcome?_memory_of_found (hmem : Component.memory ∈ components) {inventory : Inventory}
    (found : (schedule.run artifacts).findings.outcome? (.reading .inventory) =
      some (.found (.inventory inventory))) :
    (schedule.run artifacts).findings.outcome? .memory =
      some (match InstalledMemory.ofSizes (Component.moduleSizes inventory) with
        | .error cause => .failed (.faulted .memory (.memory cause))
        | .ok none => .absent (.abstained "no memory module with a recognized size")
        | .ok (some size) => .found (.memory size)) := by
  have met : ∀ required ∈ Component.memory.requires,
      Component.Met (Artifact.latest? artifacts) (schedule.run artifacts).findings required :=
    List.forall_mem_singleton.2 (.fact found)
  have houtcome := outcome?_of_met accepted artifacts hmem met
  rw [Component.derive_memory found] at houtcome
  refine houtcome.trans ?_
  cases InstalledMemory.ofSizes (Component.moduleSizes inventory) with
  | error cause => rfl
  | ok total => cases total <;> rfl

theorem found_distribution_iff (hmem : Component.distribution ∈ components) {fact : Fact} :
    (schedule.run artifacts).findings.outcome? .distribution = some (.found fact) ↔
      ∃ statement arch,
        (schedule.run artifacts).findings.outcome? (.reading .releaseStatement) =
          some (.found (.releaseStatement statement)) ∧
        Component.knownArch? (Artifact.latest? artifacts) (schedule.run artifacts).findings =
          some arch ∧
        fact = .distribution (Distribution.ofStatement statement arch) := by
  refine (found_iff accepted artifacts hmem).trans ?_
  apply Iff.intro
  · intro h
    rcases h with ⟨met, produced, -⟩
    have hmet := met (.fact (.reading .releaseStatement)) (by simp [Component.distribution])
    rcases Component.exists_form_of_met (typed_run accepted artifacts) hmet with
      ⟨_, found, statement, rfl⟩
    rw [Component.derive_distribution found] at produced
    split at produced
    · cases produced
    · next arch harch =>
      cases produced
      exact ⟨statement, arch, found, harch, rfl⟩
  · intro h
    rcases h with ⟨statement, arch, found, harch, rfl⟩
    refine ⟨List.forall_mem_singleton.2 (.fact found), ?_, rfl⟩
    rw [Component.derive_distribution found, harch]

theorem found_subscription_iff (hmem : Component.subscription ∈ components) {fact : Fact} :
    (schedule.run artifacts).findings.outcome? .subscription = some (.found fact) ↔
      ∃ host table subscription,
        (schedule.run artifacts).findings.outcome? .distribution =
          some (.found (.distribution host)) ∧
        (schedule.run artifacts).findings.outcome? (.reading .repoTable) =
          some (.found (.repoTable table)) ∧
        Subscription.classify? host table
          (((schedule.run artifacts).findings.fact? (.reading .pinnedRelease)).bind
            Fact.pinnedRelease?) = some subscription ∧
        fact = .subscription subscription := by
  refine (found_iff accepted artifacts hmem).trans ?_
  apply Iff.intro
  · intro h
    rcases h with ⟨met, produced, -⟩
    have hhost := met (.fact .distribution) (by simp [Component.subscription])
    have htable := met (.fact (.reading .repoTable)) (by simp [Component.subscription])
    rcases Component.exists_form_of_met (typed_run accepted artifacts) hhost with
      ⟨_, found, host, rfl⟩
    rcases Component.exists_form_of_met (typed_run accepted artifacts) htable with
      ⟨_, tabled, table, rfl⟩
    rw [Component.derive_subscription found tabled] at produced
    split at produced
    · cases produced
    · next subscription hclassify =>
      cases produced
      exact ⟨host, table, subscription, found, tabled, hclassify, rfl⟩
  · intro h
    rcases h with ⟨host, table, subscription, found, tabled, hclassify, rfl⟩
    refine ⟨List.forall_mem_cons.2 ⟨.fact found, List.forall_mem_singleton.2 (.fact tabled)⟩, ?_,
      rfl⟩
    rw [Component.derive_subscription found tabled, hclassify]

end HostSurvey.Schedule
