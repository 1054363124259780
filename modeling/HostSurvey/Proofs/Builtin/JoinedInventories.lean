import HostSurvey.Proofs.Builtin.Faults
import HostSurvey.Proofs.Inventory.Reading

/-!
# Inventories that are joined

A blank line between two inventories makes one that has the sections of both. Its installed memory
is that of the two added up, from the lines of the artifact to the outcome of the run: it fails when
one of them does or when the sum passes the limit, and it is absent when both are.
-/

namespace HostSurvey

open Text

/-! ## Joined lines -/

section Lines

variable {blank : String} (h : trim blank.toList = []) (first second : List String)

include h

theorem Inventory.get_ofBlocks_append (title : String) :
    (ofBlocks (first ++ blank :: second)).get title =
      (ofBlocks first).get title ++ (ofBlocks second).get title := by
  have htitle : ¬ IsTitleLine blank.toList := fun title => title.1 h
  have hindented : ¬ IsIndented blank.toList := fun indented => indented.1 h
  have hblocks := blocks_append_cons htitle hindented (first.map String.toList)
    (second.map String.toList)
  rw [get_ofBlocks, get_ofBlocks, get_ofBlocks, List.map_append, List.map_cons, hblocks,
    List.filter_append, List.map_append, List.filter_append]

theorem Component.moduleSizes_append :
    moduleSizes (Inventory.ofBlocks (first ++ blank :: second)) =
      moduleSizes (Inventory.ofBlocks first) ++ moduleSizes (Inventory.ofBlocks second) := by
  unfold moduleSizes Inventory.memoryDevices
  rw [Inventory.get_ofBlocks_append h, List.filterMap_append]

end Lines

theorem Component.moduleSizes_of_sections_eq_nil {inventory : Inventory}
    (h : inventory.sections = []) : moduleSizes inventory = [] := by
  unfold moduleSizes Inventory.memoryDevices Inventory.get
  rw [h]
  rfl

/-! ## Outcomes of the installed memory -/

/-- The memory that an outcome of the installed memory tells, which is none when it is absent. -/
inductive Outcome.Tells : Outcome → InstalledMemory → Prop
  | found (memory : InstalledMemory) : Tells (.found (.memory memory)) memory
  | absent (absence : Absence) : Tells (.absent absence) .zero

/-- The outcome of the installed memory that belongs to a total of sizes. -/
inductive Outcome.Concludes : Outcome → Except InstalledMemory.Error InstalledMemory → Prop
  | failed (failure : Failure) (cause : InstalledMemory.Error) :
      Concludes (.failed failure) (.error cause)
  | absent (absence : Absence) {total : InstalledMemory} (zero : total.megabytes = 0) :
      Concludes (.absent absence) (.ok total)
  | found {total : InstalledMemory} (positive : 0 < total.megabytes) :
      Concludes (.found (.memory total)) (.ok total)

namespace Outcome.Concludes

variable {outcome : Outcome} {total told : InstalledMemory}

theorem isFailed {cause : InstalledMemory.Error} (h : outcome.Concludes (.error cause)) :
    outcome.isFailed = true := by
  cases h
  rfl

theorem of_isAbsent {result : Except InstalledMemory.Error InstalledMemory}
    (h : outcome.Concludes result) (absent : outcome.isAbsent = true) :
    ∃ total, result = .ok total ∧ total.megabytes = 0 := by
  cases h with
  | failed failure cause => cases absent
  | absent absence zero => exact ⟨_, rfl, zero⟩
  | found positive => cases absent

theorem not_isFailed (h : outcome.Concludes (.ok total)) : ¬ outcome.isFailed = true := by
  cases h <;> simp [Outcome.isFailed]

theorem isAbsent_iff (h : outcome.Concludes (.ok total)) (scaled : total.Scaled) :
    outcome.isAbsent = true ↔ total.bytes = 0 := by
  have hbytes := scaled.bytes
  have hkilobytes := scaled.kilobytes
  cases h with
  | absent absence zero => simp only [Outcome.isAbsent, true_iff]; omega
  | found positive => simp only [Outcome.isAbsent, Bool.false_eq_true, false_iff]; omega

theorem exists_tells (h : outcome.Concludes (.ok total)) (scaled : total.Scaled) :
    ∃ told, outcome.Tells told ∧ told.bytes = total.bytes ∧ told.kilobytes = total.kilobytes ∧
      told.megabytes = total.megabytes := by
  have hbytes := scaled.bytes
  have hkilobytes := scaled.kilobytes
  cases h with
  | absent absence zero =>
    refine ⟨.zero, .absent absence, ?_, ?_, ?_⟩
    · show 0 = total.bytes
      omega
    · show 0 = total.kilobytes
      omega
    · show 0 = total.megabytes
      omega
  | found positive => exact ⟨total, .found total, rfl, rfl, rfl⟩

theorem bytes_of_tells (h : outcome.Concludes (.ok total)) (scaled : total.Scaled)
    (tells : outcome.Tells told) : told.bytes = total.bytes := by
  have hbytes := scaled.bytes
  have hkilobytes := scaled.kilobytes
  cases tells with
  | found => cases h; rfl
  | absent absence =>
    cases h with
    | absent _ zero =>
      show 0 = total.bytes
      omega

end Outcome.Concludes

theorem Outcome.concludes_ofSizes (sizes : List String) :
    Concludes
      (match InstalledMemory.ofSizes sizes with
        | .error cause => .failed (.faulted .memory (.memory cause))
        | .ok none => .absent (.abstained "no memory module with a recognized size")
        | .ok (some size) => .found (.memory size))
      (InstalledMemory.total sizes) := by
  unfold InstalledMemory.ofSizes
  cases InstalledMemory.total sizes with
  | error cause => exact .failed _ cause
  | ok total =>
    by_cases hpositive : 0 < total.megabytes
    · simp only [Except.map, if_pos hpositive]
      exact .found hpositive
    · simp only [Except.map, if_neg hpositive]
      exact .absent _ (by omega)

/-- The outcome of the installed memory for an inventory that is made of two, given those of the
two. -/
structure Outcome.Joins (left right joined : Outcome) : Prop where
  failed : joined.isFailed = true ↔ left.isFailed = true ∨ right.isFailed = true ∨
    ∃ memory more, left.Tells memory ∧ right.Tells more ∧ 2 ^ 64 ≤ memory.bytes + more.bytes
  told : joined.isFailed = false → ∃ memory more whole,
    left.Tells memory ∧ right.Tells more ∧ joined.Tells whole ∧
      whole.bytes = memory.bytes + more.bytes ∧
      whole.kilobytes = memory.kilobytes + more.kilobytes ∧
      whole.megabytes = memory.megabytes + more.megabytes
  absent : joined.isAbsent = true ↔ left.isAbsent = true ∧ right.isAbsent = true

namespace Outcome

open InstalledMemory

variable {sizes more : List String} {left right joined : Outcome} {first second : InstalledMemory}

theorem joins_of_below (hfirst : total sizes = .ok first) (hsecond : total more = .ok second)
    (hlt : first.bytes + second.bytes < 2 ^ 64) (hleft : left.Concludes (.ok first))
    (hright : right.Concludes (.ok second)) (hjoined : joined.Concludes (total (sizes ++ more))) :
    left.Joins right joined := by
  rcases exists_total_append_eq_ok hfirst hsecond hlt with ⟨whole, hwhole⟩
  have hbytes : whole.bytes = first.bytes + second.bytes := by
    rcases total_append_eq_ok hwhole with ⟨a, b, ha, hb, hsum, -⟩
    cases ha.symm.trans hfirst
    cases hb.symm.trans hsecond
    exact hsum
  have sfirst := scaled_of_total_eq_ok hfirst
  have ssecond := scaled_of_total_eq_ok hsecond
  have swhole := scaled_of_total_eq_ok hwhole
  rw [hwhole] at hjoined
  apply Joins.mk
  · apply Iff.intro
    · intro hfailed
      exact absurd hfailed hjoined.not_isFailed
    · intro hcauses
      rcases hcauses with hfailed | hfailed | ⟨memory, rest, hmemory, hrest, hlarge⟩
      · exact absurd hfailed hleft.not_isFailed
      · exact absurd hfailed hright.not_isFailed
      · rw [hleft.bytes_of_tells sfirst hmemory, hright.bytes_of_tells ssecond hrest] at hlarge
        omega
  · intro _
    rcases hleft.exists_tells sfirst with ⟨a, ha, ha₁, ha₂, ha₃⟩
    rcases hright.exists_tells ssecond with ⟨b, hb, hb₁, hb₂, hb₃⟩
    rcases hjoined.exists_tells swhole with ⟨c, hc, hc₁, hc₂, hc₃⟩
    -- the greater units add up because the bytes do
    have ufirst := sfirst.kilobytes
    have usecond := ssecond.kilobytes
    have uwhole := swhole.kilobytes
    have vfirst := sfirst.bytes
    have vsecond := ssecond.bytes
    have vwhole := swhole.bytes
    exact ⟨a, b, c, ha, hb, hc, by omega, by omega, by omega⟩
  · rw [hjoined.isAbsent_iff swhole, hleft.isAbsent_iff sfirst, hright.isAbsent_iff ssecond]
    omega

theorem joins_of_not_below (hnot : ¬ ∃ first second, total sizes = .ok first ∧
      total more = .ok second ∧ first.bytes + second.bytes < 2 ^ 64)
    (hleft : left.Concludes (total sizes)) (hright : right.Concludes (total more))
    (hjoined : joined.Concludes (total (sizes ++ more))) : left.Joins right joined := by
  have hfailed : joined.isFailed = true := by
    cases hwhole : total (sizes ++ more) with
    | error cause => rw [hwhole] at hjoined; exact hjoined.isFailed
    | ok whole =>
      rcases total_append_eq_ok hwhole with ⟨first, second, hfirst, hsecond, hsum, hlt⟩
      exact absurd ⟨first, second, hfirst, hsecond, by omega⟩ hnot
  apply Joins.mk
  · refine ⟨fun _ => ?_, fun _ => hfailed⟩
    cases hfirst : total sizes with
    | error cause => rw [hfirst] at hleft; exact .inl hleft.isFailed
    | ok first =>
      cases hsecond : total more with
      | error cause => rw [hsecond] at hright; exact .inr (.inl hright.isFailed)
      | ok second =>
        rw [hfirst] at hleft
        rw [hsecond] at hright
        rcases hleft.exists_tells (scaled_of_total_eq_ok hfirst) with ⟨a, ha, ha₁, -, -⟩
        rcases hright.exists_tells (scaled_of_total_eq_ok hsecond) with ⟨b, hb, hb₁, -, -⟩
        refine .inr (.inr ⟨a, b, ha, hb, Nat.le_of_not_lt fun hlt => ?_⟩)
        exact hnot ⟨first, second, hfirst, hsecond, by omega⟩
  · intro hfalse
    rw [hfailed] at hfalse
    cases hfalse
  · apply Iff.intro
    · intro habsent
      cases joined <;> simp [Outcome.isFailed, Outcome.isAbsent] at hfailed habsent
    · intro habsent
      -- two absences are two totals of nothing, which stay below the limit
      rcases hleft.of_isAbsent habsent.1 with ⟨first, hfirst, hzero⟩
      rcases hright.of_isAbsent habsent.2 with ⟨second, hsecond, hzero'⟩
      refine absurd ⟨first, second, hfirst, hsecond, ?_⟩ hnot
      have sfirst := scaled_of_total_eq_ok hfirst
      have ssecond := scaled_of_total_eq_ok hsecond
      rw [sfirst.bytes, sfirst.kilobytes, ssecond.bytes, ssecond.kilobytes, hzero, hzero']
      decide

-- The joined inventory has a total exactly when both parts have one and these stay below the limit.
theorem joins_of_concludes (hleft : left.Concludes (total sizes))
    (hright : right.Concludes (total more)) (hjoined : joined.Concludes (total (sizes ++ more))) :
    left.Joins right joined := by
  by_cases hall : ∃ first second, total sizes = .ok first ∧ total more = .ok second ∧
      first.bytes + second.bytes < 2 ^ 64
  · rcases hall with ⟨first, second, hfirst, hsecond, hlt⟩
    rw [hfirst] at hleft
    rw [hsecond] at hright
    exact joins_of_below hfirst hsecond hlt hleft hright hjoined
  · exact joins_of_not_below hall hleft hright hjoined

end Outcome

/-! ## Runs over one inventory -/

namespace Schedule

section Joined

variable {config : Config} {schedule : Schedule} (accepted : config.schedule = .ok schedule)
  (enabled : .memory ∉ config.disabled) (metadata : Metadata)

include accepted enabled

theorem exists_concludes_memory (lines : List String) :
    ∃ outcome, (schedule.run [⟨.inventory, lines, metadata, none⟩]).findings.outcome? .memory =
        some outcome ∧
      outcome.Concludes (InstalledMemory.total
        (Component.moduleSizes (Inventory.ofBlocks lines))) := by
  have builtin : config.components ⊆ Component.builtins := List.filter_sublist.subset
  have hmem : Component.memory ∈ config.components := mem_components_iff.2 enabled
  have hlast : Artifact.lastOf [⟨.inventory, lines, metadata, none⟩] .inventory =
      some ⟨.inventory, lines, metadata, none⟩ := rfl
  cases hread : Inventory.ofLines? lines with
  | some inventory =>
    have hreading := reading_inventory_mem builtin accepted hmem
    have hfact : Fact.ofLines? .inventory lines = some (.inventory inventory) := by
      rw [Fact.ofLines?, hread]
      rfl
    have found := (found_reading_iff accepted _ hreading).2 ⟨_, hlast, hfact⟩
    refine ⟨_, outcome?_memory_of_found accepted _ hmem found, ?_⟩
    rw [← Inventory.eq_ofBlocks_of_ofLines? hread]
    exact Outcome.concludes_ofSizes (Component.moduleSizes inventory)
  | none =>
    have unread : ∀ artifact,
        Artifact.lastOf [⟨.inventory, lines, metadata, none⟩] .inventory = some artifact →
          Inventory.ofLines? artifact.lines = none := by
      intro artifact hartifact
      cases hlast.symm.trans hartifact
      exact hread
    rcases exists_absent_memory builtin accepted _ hmem unread with ⟨absence, habsent⟩
    rw [Component.moduleSizes_of_sections_eq_nil
      ((Inventory.ofLines?_eq_none_iff_sections lines).1 hread)]
    exact ⟨_, habsent, .absent absence rfl⟩

/-- The installed memory of two inventories with a blank line between them is that of both added
up. -/
theorem outcome?_memory_joined (first second : List String) {blank : String}
    (h : trim blank.toList = []) :
    ∃ left right joined,
      (schedule.run [⟨.inventory, first, metadata, none⟩]).findings.outcome? .memory =
        some left ∧
      (schedule.run [⟨.inventory, second, metadata, none⟩]).findings.outcome? .memory =
        some right ∧
      (schedule.run [⟨.inventory, first ++ blank :: second, metadata, none⟩]).findings.outcome?
        .memory = some joined ∧
      left.Joins right joined := by
  rcases exists_concludes_memory accepted enabled metadata first with ⟨left, hleft, cleft⟩
  rcases exists_concludes_memory accepted enabled metadata second with ⟨right, hright, cright⟩
  rcases exists_concludes_memory accepted enabled metadata (first ++ blank :: second) with
    ⟨joined, hjoined, cjoined⟩
  rw [Component.moduleSizes_append h] at cjoined
  exact ⟨left, right, joined, hleft, hright, hjoined,
    Outcome.joins_of_concludes cleft cright cjoined⟩

end Joined

/-- The first inventory ends in an open section, and the second one starts with a size that belongs
to no section. -/
theorem memory_of_open_section_joined :
    Config.default.schedule = .ok ⟨Component.builtins⟩ ∧
    .memory ∉ Config.default.disabled ∧
    trim "\t".toList = [] ∧
    ∃ left right joined,
      ((⟨Component.builtins⟩ : Schedule).run
        [⟨.inventory, ["Memory Device", "\tSize: 4 GB"], {}, none⟩]).findings.outcome? .memory =
          some left ∧
      ((⟨Component.builtins⟩ : Schedule).run
        [⟨.inventory, ["\tSize: 9 GB", "Memory Device", "\tSize: 2048 MB"], {},
          none⟩]).findings.outcome? .memory = some right ∧
      ((⟨Component.builtins⟩ : Schedule).run
        [⟨.inventory, ["Memory Device", "\tSize: 4 GB"] ++
          "\t" :: ["\tSize: 9 GB", "Memory Device", "\tSize: 2048 MB"], {},
          none⟩]).findings.outcome? .memory = some joined ∧
      left.Joins right joined := by
  have accepted : Config.default.schedule = .ok ⟨Component.builtins⟩ := ofComponents_builtins
  have enabled : .memory ∉ Config.default.disabled := by decide
  have hblank : trim "\t".toList = [] := by decide +kernel
  exact ⟨accepted, enabled, hblank, outcome?_memory_joined accepted enabled {} _ _ hblank⟩

end Schedule

end HostSurvey
