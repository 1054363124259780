import HostSurvey.Config
import HostSurvey.Proofs.Builtin.Findings
import HostSurvey.Proofs.InstalledMemory.Total
import HostSurvey.Proofs.Run.RootCause

/-!
# Which built-in components fail

In a run of built-in components, whichever are disabled, nothing fails but the installed memory, and
that fails exactly when the last inventory can be read and the sizes of its memory modules do not
add up. Nothing requires the installed memory, so its failure is passed on to no other component.
-/

namespace HostSurvey

theorem Component.Sound.kind_eq {kind : Kind} {fact : Fact}
    (h : Component.Sound kind (.ok (.produced fact))) : fact.kind = kind := by
  cases h
  rfl

theorem Component.Sound.of_error {kind : Kind} {fault : Fault}
    (h : Component.Sound kind (.error fault)) :
    kind = .memory ∧ ∃ cause, fault = .memory cause := by
  cases h with
  | memory cause => exact ⟨rfl, cause, rfl⟩

theorem Component.not_requires_memory {component : Component} (h : component ∈ builtins) :
    .fact .memory ∉ component.requires := by
  rw [mem_builtins_iff.1 h]
  cases component.produces <;>
    simp [builtin, reading, memory, distribution, subscription, utilization]

namespace Schedule

open InstalledMemory (Counts StandsFor exists_ofSizes_eq_error_iff)

section Builtin

variable {components : List Component} {schedule : Schedule}
  (builtin : components ⊆ Component.builtins) (accepted : ofComponents components = .ok schedule)
  (artifacts : List Artifact)

include builtin accepted

theorem sound_of_mem_invocations {invocation : Invocation}
    (h : invocation ∈ (schedule.run artifacts).invocations) :
    Component.Sound invocation.component.produces
      (invocation.component.derive invocation.inputs) := by
  rcases (mem_invocations_iff accepted artifacts).1 h with ⟨hmem, met, hinputs⟩
  have hsame := Component.mem_builtins_iff.1 (builtin hmem)
  rw [hsame] at met
  have sound := Component.sound_derive (typed_run accepted artifacts) _ met
  rw [← hsame, ← hinputs] at sound
  exact sound

theorem sound_of_derived {component : Component} {result : Except Fault Derivation}
    (h : (schedule.run artifacts).Derived component result) :
    Component.Sound component.produces result := by
  rcases h with ⟨inputs, hmem, rfl⟩
  exact sound_of_mem_invocations builtin accepted artifacts hmem

theorem eq_memory_of_atFault {component : Component} {failure : Failure}
    (h : (schedule.run artifacts).AtFault component failure) : component.produces = .memory := by
  cases h with
  | faulted derived => exact (sound_of_derived builtin accepted artifacts derived).of_error.1
  | wrongKind derived kind =>
    exact absurd (sound_of_derived builtin accepted artifacts derived).kind_eq kind

theorem eq_memory_of_failed {kind : Kind} {failure : Failure}
    (h : (schedule.run artifacts).findings.outcome? kind = some (.failed failure)) :
    kind = .memory := by
  rcases exists_failed_root accepted artifacts h with
    ⟨root, leads, component, cause, registered, hroot, fault⟩
  rcases (get?_eq_some_iff accepted).1 registered with ⟨hmem, rfl⟩
  have hmemory := eq_memory_of_atFault builtin accepted artifacts fault
  rcases (leads kind .refl).cases_tail with hkind | ⟨user, -, hpointer⟩
  · rw [hkind] at hmemory
    exact hmemory
  · -- the last pointer would come from a component that requires the installed memory
    rcases hpointer with ⟨passed, hfailed⟩
    rcases exists_registered accepted artifacts hfailed with ⟨consumer, hc, rfl, -⟩
    rcases failed_cases accepted artifacts hc hfailed with own | ⟨required, _, heq, hrequired, -⟩
    · cases own
    · cases heq
      rw [hmemory] at hrequired
      exact absurd hrequired (Component.not_requires_memory (builtin hc))

theorem builtin_mem_of_required {component : Component}
    (hmem : component ∈ components) {kind : Kind} (h : .fact kind ∈ component.requires) :
    Component.builtin kind ∈ components := by
  rcases ofComponents_ok_iff.1 accepted with ⟨-, produced, -⟩
  rcases produced component hmem kind h with ⟨producer, hp, rfl⟩
  exact Component.builtin_produces_mem builtin hp

theorem reading_inventory_mem (hmem : Component.memory ∈ components) :
    Component.reading .inventory ∈ components := by
  have hrequires : .fact (.reading .inventory) ∈ Component.memory.requires := by decide
  exact builtin_mem_of_required builtin accepted hmem hrequires

theorem reading_releaseStatement_mem (hmem : Component.distribution ∈ components) :
    Component.reading .releaseStatement ∈ components := by
  have hrequires : .fact (.reading .releaseStatement) ∈ Component.distribution.requires := by decide
  exact builtin_mem_of_required builtin accepted hmem hrequires

theorem memory_failed_iff (hmem : Component.memory ∈ components) :
    (∃ failure, (schedule.run artifacts).findings.outcome? .memory = some (.failed failure)) ↔
      ∃ artifact inventory, Artifact.lastOf artifacts .inventory = some artifact ∧
        Inventory.ofLines? artifact.lines = some inventory ∧
        ∃ cause, InstalledMemory.ofSizes (Component.moduleSizes inventory) = .error cause := by
  have hrequires : .fact (.reading .inventory) ∈ Component.memory.requires := by decide
  have hreading := reading_inventory_mem builtin accepted hmem
  apply Iff.intro
  · intro h
    rcases h with ⟨failure, h⟩
    rcases failed_cases accepted artifacts hmem h with own | ⟨required, cause, -, hrequired, hcause⟩
    · cases own with
      | wrongKind derived kind =>
        exact absurd (sound_of_derived builtin accepted artifacts derived).kind_eq kind
      | faulted derived =>
        rcases derived with ⟨inputs, hinvoked, -⟩
        rcases (mem_invocations_iff accepted artifacts).1 hinvoked with ⟨-, met, -⟩
        rcases Component.exists_form_of_met (typed_run accepted artifacts) (met _ hrequires) with
          ⟨_, found, inventory, rfl⟩
        rcases (found_reading_iff accepted artifacts hreading).1 found with ⟨artifact, hlast, hfact⟩
        rcases Option.map_eq_some_iff.1 hfact with ⟨read, hread, heq⟩
        cases heq
        refine ⟨artifact, inventory, hlast, hread, ?_⟩
        have houtcome := h.symm.trans (outcome?_memory_of_found accepted artifacts hmem found)
        split at houtcome
        · next cause herror => exact ⟨cause, herror⟩
        · cases houtcome
        · cases houtcome
    · have heq : required = .reading .inventory := by simpa [Component.memory] using hrequired
      have hmemory := eq_memory_of_failed builtin accepted artifacts hcause
      rw [heq] at hmemory
      cases hmemory
  · intro h
    rcases h with ⟨artifact, inventory, hlast, hread, cause, herror⟩
    have hfact : Fact.ofLines? .inventory artifact.lines = some (.inventory inventory) := by
      rw [Fact.ofLines?, hread]
      rfl
    have found := (found_reading_iff accepted artifacts hreading).2 ⟨artifact, hlast, hfact⟩
    have houtcome := outcome?_memory_of_found accepted artifacts hmem found
    rw [herror] at houtcome
    exact ⟨_, houtcome⟩

-- Without an inventory that can be read, the memory is neither found nor failed.
theorem exists_absent_memory (hmem : Component.memory ∈ components)
    (unread : ∀ artifact, Artifact.lastOf artifacts .inventory = some artifact →
      Inventory.ofLines? artifact.lines = none) :
    ∃ absence, (schedule.run artifacts).findings.outcome? .memory = some (.absent absence) := by
  have hrequires : .fact (.reading .inventory) ∈ Component.memory.requires := by decide
  have hreading := reading_inventory_mem builtin accepted hmem
  have hsome := ((solves_run accepted artifacts).domain .memory).2 ⟨Component.memory, hmem, rfl⟩
  rcases Option.isSome_iff_exists.1 hsome with ⟨outcome, houtcome⟩
  cases outcome with
  | absent absence => exact ⟨absence, houtcome⟩
  | failed failure =>
    rcases (memory_failed_iff builtin accepted artifacts hmem).1 ⟨failure, houtcome⟩ with
      ⟨artifact, inventory, hlast, hread, -⟩
    cases (unread artifact hlast).symm.trans hread
  | found fact =>
    cases ((found_iff accepted artifacts hmem).1 houtcome).1 _ hrequires with
    | fact found =>
      rcases (found_reading_iff accepted artifacts hreading).1 found with ⟨artifact, hlast, hfact⟩
      rw [Fact.ofLines?, unread artifact hlast] at hfact
      cases hfact

end Builtin

/-! ## Configurations -/

theorem mem_components_iff {config : Config} {kind : Kind} :
    Component.builtin kind ∈ config.components ↔ kind ∉ config.disabled := by
  rw [Config.components, List.mem_filter, Component.produces_builtin]
  simp [Component.builtin_mem_builtins]

/-- Whichever built-in components are disabled, no other than the installed memory fails, and that
fails exactly when the sizes in the last inventory do not add up. Every derivation that is invoked
comes to what it may come to, and would come to the same if its inputs showed something else where
its component declares nothing. -/
theorem builtin_run_sound {config : Config} {schedule : Schedule}
    (accepted : config.schedule = .ok schedule) (artifacts : List Artifact) :
    (∀ kind failure, (schedule.run artifacts).findings.outcome? kind = some (.failed failure) →
      kind = .memory) ∧
    (.memory ∉ config.disabled →
      ((∃ failure, (schedule.run artifacts).findings.outcome? .memory = some (.failed failure)) ↔
        ∃ artifact inventory, Artifact.lastOf artifacts .inventory = some artifact ∧
          Inventory.ofLines? artifact.lines = some inventory ∧
          ((∃ size ∈ Component.moduleSizes inventory, ∃ number unit,
              Counts size number unit ∧ ∀ n, Text.Numeral number n → 2 ^ 64 ≤ n) ∨
            ∃ bytes, List.Forall₂ StandsFor (Component.moduleSizes inventory) bytes ∧
              2 ^ 64 ≤ bytes.sum))) ∧
    ∀ invocation ∈ (schedule.run artifacts).invocations,
      Component.Sound invocation.component.produces
        (invocation.component.derive invocation.inputs) ∧
      ∀ other, invocation.component.SameView invocation.inputs other →
        invocation.component.derive other = invocation.component.derive invocation.inputs := by
  have builtin : config.components ⊆ Component.builtins := List.filter_sublist.subset
  refine ⟨?_, ?_, ?_⟩
  · intro kind failure h
    exact eq_memory_of_failed builtin accepted artifacts h
  · intro enabled
    rw [memory_failed_iff builtin accepted artifacts (mem_components_iff.2 enabled)]
    simp only [exists_ofSizes_eq_error_iff]
  · intro invocation h
    refine ⟨sound_of_mem_invocations builtin accepted artifacts h, fun other same => ?_⟩
    rcases (mem_invocations_iff accepted artifacts).1 h with ⟨hmem, -, -⟩
    have hsame := Component.mem_builtins_iff.1 (builtin hmem)
    rw [hsame] at same ⊢
    exact (Component.derive_eq_of_sameView _ same).symm

/-- A size of one and a half gigabytes. -/
def fractionalInventory : Artifact := Artifact.ofText .inventory "Memory Device\n\tSize: 1.5 GB"

theorem fractional_size_fails :
    Config.default.schedule = .ok ⟨Component.builtins⟩ ∧
    .memory ∉ Config.default.disabled ∧
    ∃ failure, ((⟨Component.builtins⟩ : Schedule).run [fractionalInventory]).findings.outcome?
      .memory = some (.failed failure) := by
  have accepted : Config.default.schedule = .ok ⟨Component.builtins⟩ := ofComponents_builtins
  have enabled : .memory ∉ Config.default.disabled := by decide
  refine ⟨accepted, enabled, ?_⟩
  have sound := builtin_run_sound accepted [fractionalInventory]
  refine (sound.2.1 enabled).2 ⟨fractionalInventory, ⟨[("memory_device", [[("size", "1.5 GB")]])]⟩,
    rfl, by decide +kernel, .inl ⟨"1.5 GB", by decide +kernel, ['1', '.', '5'], .gigabyte, ?_, ?_⟩⟩
  · exact ⟨['G', 'B'], by decide +kernel, by decide, by decide⟩
  · -- a point is no digit
    intro n numeral
    have hread : Text.readNumeral Text.longLimit ['1', '.', '5'] = .error .invalidDigit := rfl
    by_contra hlt
    rw [InstalledMemory.readNumeral_eq_ok_iff.2 ⟨numeral, Nat.lt_of_not_le hlt⟩] at hread
    cases hread

end Schedule

end HostSurvey
