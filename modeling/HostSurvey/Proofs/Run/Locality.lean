import HostSurvey.Proofs.Run.Fixpoint

/-!
# What an outcome depends on

The outcome of a kind is decided by its cone, that is by the components that it depends on, directly
or through others, and by the last artifact of each category that these declare. Two runs that agree
on the cone agree on the outcome, whatever else they evaluate and in whatever order.
-/

namespace HostSurvey

/-- The last artifact of a category in a collection. -/
def Artifact.lastOf (artifacts : List Artifact) (category : Category) : Option Artifact :=
  (artifacts.filter (·.category = category)).getLast?

theorem Artifact.latest?_eq_lastOf (artifacts : List Artifact) (category : Category) :
    latest? artifacts category = lastOf artifacts category := by
  unfold latest? lastOf
  rw [← List.head?_filter, List.filter_reverse, List.head?_reverse]
  congr 1

-- An artifact does not count when a later one has its category.
theorem Artifact.lastOf_overridden {before after : List Artifact} {overridden : Artifact}
    (h : ∃ later ∈ after, later.category = overridden.category) (category : Category) :
    lastOf (before ++ overridden :: after) category = lastOf (before ++ after) category := by
  unfold lastOf
  rw [List.filter_append, List.filter_append, List.filter_cons]
  by_cases hcategory : overridden.category = category
  · rw [if_pos (by simpa using hcategory)]
    rcases h with ⟨later, hmem, hlater⟩
    -- the later artifact is the last one with or without the overridden one
    have hne : after.filter (·.category = category) ≠ [] := by
      apply List.ne_nil_of_mem (a := later)
      rw [List.mem_filter]
      exact ⟨hmem, by simpa using hlater.trans hcategory⟩
    rw [List.getLast?_append_of_ne_nil _ (List.cons_ne_nil _ _),
      List.getLast?_append_of_ne_nil _ hne, ← List.singleton_append,
      List.getLast?_append_of_ne_nil _ hne]
  · rw [if_neg (by simpa using hcategory)]

namespace Schedule

/-- The kinds that the outcome of a kind can depend on: itself, and the facts that the component
registered for one of them declares, required or optional. -/
inductive Cone (schedule : Schedule) (kind : Kind) : Kind → Prop
  | self : Cone schedule kind kind
  | step {user used : Kind} {component : Component} (below : Cone schedule kind user)
      (registered : schedule.get? user = some component) (depends : component.DependsOn used) :
      Cone schedule kind used

/-- Over the cone of a kind, two schedules hold the same components, and for what these declare two
collections hold the same last artifacts. -/
structure SameCone (schedule₁ schedule₂ : Schedule) (artifacts₁ artifacts₂ : List Artifact)
    (kind : Kind) : Prop where
  components : ∀ used, Cone schedule₁ kind used → schedule₁.get? used = schedule₂.get? used
  artifacts : ∀ used component category, Cone schedule₁ kind used →
    schedule₁.get? used = some component →
    (.artifact category ∈ component.requires ∨ .artifact category ∈ component.optional) →
    Artifact.lastOf artifacts₁ category = Artifact.lastOf artifacts₂ category

section TwoRuns

variable {components₁ components₂ placed : List Component} {schedule₁ schedule₂ : Schedule}
  {artifacts₁ artifacts₂ : List Artifact} {kind : Kind}

-- Agreement goes up the order of the first schedule; the order of the second plays no part.
theorem SameCone.outcome?_eq_of_settled
    (same : SameCone schedule₁ schedule₂ artifacts₁ artifacts₂ kind)
    (accepted₁ : ofComponents components₁ = .ok schedule₁)
    (accepted₂ : ofComponents components₂ = .ok schedule₂)
    (settled : Settled components₁ placed) {component : Component} (hc : component ∈ placed)
    (cone : Cone schedule₁ kind component.produces) :
    (schedule₁.run artifacts₁).findings.outcome? component.produces =
      (schedule₂.run artifacts₂).findings.outcome? component.produces := by
  induction settled generalizing component with
  | nil => cases hc
  | @snoc placed last earlier mem fresh ready ih =>
    rcases List.mem_append.1 hc with hc | hc
    · exact ih hc cone
    rw [List.mem_singleton] at hc
    subst hc
    have registered₁ : schedule₁.get? component.produces = some component :=
      (get?_eq_some_iff accepted₁).2 ⟨mem, rfl⟩
    have registered₂ : schedule₂.get? component.produces = some component :=
      (same.components _ cone).symm.trans registered₁
    have mem₂ := ((get?_eq_some_iff accepted₂).1 registered₂).1
    rw [(solves_run accepted₁ artifacts₁).outcome?_eq mem,
      (solves_run accepted₂ artifacts₂).outcome?_eq mem₂]
    congr 1
    -- both sides now evaluate one component, over findings that agree on what it declares
    apply Component.evaluate_congr
    · intro used depends
      have cone' := Cone.step cone registered₁ depends
      cases hused : schedule₁.get? used with
      | some producer =>
        rcases (get?_eq_some_iff accepted₁).1 hused with ⟨hp, rfl⟩
        exact ih (ready producer hp depends) cone'
      | none =>
        -- neither run knows the kind
        have hused₂ := (same.components used cone').symm.trans hused
        rw [(solves_run accepted₁ artifacts₁).outcome?_eq_none ((get?_eq_none_iff accepted₁).1 hused),
          (solves_run accepted₂ artifacts₂).outcome?_eq_none
            ((get?_eq_none_iff accepted₂).1 hused₂)]
    · intro category declared
      rw [Artifact.latest?_eq_lastOf, Artifact.latest?_eq_lastOf]
      exact same.artifacts _ component category cone registered₁ (Component.declares_iff.1 declared)

theorem SameCone.outcome?_eq (same : SameCone schedule₁ schedule₂ artifacts₁ artifacts₂ kind)
    (accepted₁ : ofComponents components₁ = .ok schedule₁)
    (accepted₂ : ofComponents components₂ = .ok schedule₂) :
    (schedule₁.run artifacts₁).findings.outcome? kind =
      (schedule₂.run artifacts₂).findings.outcome? kind := by
  cases hkind : schedule₁.get? kind with
  | some component =>
    rcases (get?_eq_some_iff accepted₁).1 hkind with ⟨hmem, rfl⟩
    rcases settled_of_ofComponents accepted₁ with ⟨settled, all⟩
    exact same.outcome?_eq_of_settled accepted₁ accepted₂ settled (all hmem) .self
  | none =>
    have hkind₂ := (same.components kind .self).symm.trans hkind
    rw [(solves_run accepted₁ artifacts₁).outcome?_eq_none ((get?_eq_none_iff accepted₁).1 hkind),
      (solves_run accepted₂ artifacts₂).outcome?_eq_none ((get?_eq_none_iff accepted₂).1 hkind₂)]

end TwoRuns

/-! ## Declaration order -/

section Order

variable {components components' : List Component} {schedule schedule' : Schedule}

theorem Edge.of_perm (h : components.Perm components') {a b : Component}
    (e : Edge components a b) : Edge components' a b :=
  ⟨h.subset e.consumer_mem, h.subset e.producer_mem, e.depends⟩

-- Whether components have a schedule does not depend on the order in which they are declared.
theorem exists_ofComponents_of_perm (accepted : ofComponents components = .ok schedule)
    (h : components.Perm components') : ∃ schedule', ofComponents components' = .ok schedule' := by
  rcases ofComponents_ok_iff.1 accepted with ⟨unique, produced, -⟩
  have acyclic := acyclic_of_ofComponents accepted
  apply exists_ofComponents (unique.of_perm h) (produced.of_perm h)
  -- the two graphs have the same edges
  intro component p
  have hmono : Relation.TransGen (Edge components') ≤ Relation.TransGen (Edge components) :=
    Relation.TransGen.mono fun _ _ e => e.of_perm h.symm
  exact acyclic component (hmono component component p)

theorem get?_eq_of_perm (accepted : ofComponents components = .ok schedule)
    (accepted' : ofComponents components' = .ok schedule') (h : components.Perm components')
    (kind : Kind) : schedule.get? kind = schedule'.get? kind := by
  apply Option.ext
  intro component
  rw [get?_eq_some_iff accepted, get?_eq_some_iff accepted', h.mem_iff]

end Order

-- Two schedules with the same components, over collections with the same last artifacts.
theorem run_findings_eq {components components' : List Component} {schedule schedule' : Schedule}
    (accepted : ofComponents components = .ok schedule)
    (accepted' : ofComponents components' = .ok schedule') {artifacts artifacts' : List Artifact}
    (hget : ∀ kind, schedule.get? kind = schedule'.get? kind)
    (hlast : ∀ category, Artifact.lastOf artifacts category = Artifact.lastOf artifacts' category) :
    (schedule.run artifacts).findings = (schedule'.run artifacts').findings := by
  apply Findings.ext
  intro kind
  refine SameCone.outcome?_eq ⟨?_, ?_⟩ accepted accepted'
  · exact fun used _ => hget used
  · exact fun _ _ category _ _ _ => hlast category

/-- Agreement over the cone of a kind is agreement on its outcome. So the declaration order of the
components, the interleaving of artifacts of different categories, overridden artifacts, and
components outside of the cone make no difference. -/
theorem run_outcome?_local {components : List Component} {schedule : Schedule}
    (accepted : ofComponents components = .ok schedule) (artifacts : List Artifact) :
    (∀ components' schedule' artifacts' kind, ofComponents components' = .ok schedule' →
      SameCone schedule schedule' artifacts artifacts' kind →
      (schedule.run artifacts).findings.outcome? kind =
        (schedule'.run artifacts').findings.outcome? kind) ∧
    (∀ components', components.Perm components' →
      ∃ schedule', ofComponents components' = .ok schedule' ∧
        (schedule.run artifacts).findings = (schedule'.run artifacts).findings) ∧
    (∀ artifacts', (∀ category, artifacts.filter (·.category = category) =
        artifacts'.filter (·.category = category)) →
      (schedule.run artifacts).findings = (schedule.run artifacts').findings) ∧
    (∀ before overridden after, artifacts = before ++ overridden :: after →
      (∃ later ∈ after, later.category = overridden.category) →
      (schedule.run artifacts).findings = (schedule.run (before ++ after)).findings) ∧
    (∀ components' schedule' kind, ofComponents components' = .ok schedule' →
      (∀ component, Cone schedule kind component.produces →
        (component ∈ components ↔ component ∈ components')) →
      (schedule.run artifacts).findings.outcome? kind =
        (schedule'.run artifacts).findings.outcome? kind) := by
  refine ⟨?_, ?_, ?_, ?_, ?_⟩
  · intro components' schedule' artifacts' kind accepted' same
    exact same.outcome?_eq accepted accepted'
  · intro components' h
    rcases exists_ofComponents_of_perm accepted h with ⟨schedule', accepted'⟩
    refine ⟨schedule', accepted', ?_⟩
    exact run_findings_eq accepted accepted' (get?_eq_of_perm accepted accepted' h) fun _ => rfl
  · intro artifacts' h
    refine run_findings_eq accepted accepted (fun _ => rfl) fun category => ?_
    unfold Artifact.lastOf
    rw [h category]
  · intro before overridden after hsplit h
    rw [hsplit]
    exact run_findings_eq accepted accepted (fun _ => rfl) (Artifact.lastOf_overridden h)
  · intro components' schedule' kind accepted' h
    refine SameCone.outcome?_eq ⟨fun used cone => ?_, fun _ _ _ _ _ _ => rfl⟩ accepted accepted'
    apply Option.ext
    intro component
    rw [get?_eq_some_iff accepted, get?_eq_some_iff accepted']
    apply Iff.intro
    · intro hregistered
      rcases hregistered with ⟨hmem, rfl⟩
      exact ⟨(h component cone).1 hmem, rfl⟩
    · intro hregistered
      rcases hregistered with ⟨hmem, rfl⟩
      exact ⟨(h component cone).2 hmem, rfl⟩

/-- A reading of the kernel identity that crashes whenever it is invoked. -/
def crashingIdentity : Component :=
  { Component.reading .kernelIdentity with derive := fun _ => .error (.crashed none) }

theorem cone_memory_builtins {used : Kind} (h : Cone ⟨Component.builtins⟩ .memory used) :
    used = .memory ∨ used = .reading .inventory := by
  induction h with
  | self => exact .inl rfl
  | step _ registered depends ih =>
    rcases ih with rfl | rfl
    · cases registered
      right
      simpa [Component.DependsOn, Component.memory] using depends
    · cases registered
      simp [Component.DependsOn, Component.reading] at depends

/-- The installed memory stays the same when the kernel identity crashes, most other components are
gone, the rest are declared in another order, and an outdated inventory is gone too. -/
theorem memory_outcome?_local :
    ofComponents Component.builtins = .ok ⟨Component.builtins⟩ ∧
    ofComponents [Component.memory, crashingIdentity, Component.reading .inventory] =
      .ok ⟨[Component.reading .inventory, Component.memory, crashingIdentity]⟩ ∧
    ((⟨Component.builtins⟩ : Schedule).run
        [Artifact.ofText .inventory "outdated", Artifact.ofText .kernelIdentity "Linux db01 5.14.0",
          Artifact.ofText .inventory "Memory Device\n\tSize: 8 GB"]).findings.outcome? .memory =
      ((⟨[Component.reading .inventory, Component.memory, crashingIdentity]⟩ : Schedule).run
        [Artifact.ofText .inventory "Memory Device\n\tSize: 8 GB"]).findings.outcome? .memory := by
  have accepted : ofComponents [Component.memory, crashingIdentity, Component.reading .inventory] =
      .ok ⟨[Component.reading .inventory, Component.memory, crashingIdentity]⟩ :=
    ofComponents_of_walk (by decide) (by decide) (by cbv)
  refine ⟨ofComponents_builtins, accepted, ?_⟩
  refine (run_outcome?_local ofComponents_builtins _).1 _ _ _ .memory accepted ⟨?_, ?_⟩
  · intro used cone
    rcases cone_memory_builtins cone with rfl | rfl <;> rfl
  · intro used component category cone registered declared
    rcases cone_memory_builtins cone with rfl | rfl
    · cases registered
      simp [Component.memory] at declared
    · cases registered
      have hcategory : category = .inventory := by
        simpa [Component.reading] using declared
      rw [hcategory]
      rfl

end Schedule

end HostSurvey
