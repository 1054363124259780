import HostSurvey.Proofs.KernelIdentity.Statement
import HostSurvey.Proofs.Subscription.Entitlement

/-!
# Where the architecture of a distribution comes from

The kernel identity comes first: only when no identity with an architecture is found, the metadata of
the last release statement are asked, and never those of another artifact. This holds whether or not
the component that reads kernel identities is enabled.
-/

namespace HostSurvey

/-- An identity with the architecture is found. -/
def Findings.IdentifiesArch (findings : Findings) (arch : String) : Prop :=
  ∃ identity, findings.outcome? (.reading .kernelIdentity) =
    some (.found (.kernelIdentity identity)) ∧ identity.arch = some arch

/-- The architecture of a host whose release a given artifact states. -/
inductive KnownArch (findings : Findings) (stated : Artifact) (arch : String) : Prop
  | identified (identifies : findings.IdentifiesArch arch)
  | collected (unidentified : ∀ other, ¬ findings.IdentifiesArch other)
      (metadata : stated.metadata.arch = some arch)

/-- What the findings of a host tell of its distribution, where kernel identities are read or not. -/
structure TellsDistribution (identities : Prop) (artifacts : List Artifact) (findings : Findings) :
    Prop where
  found : ∀ fact, findings.outcome? .distribution = some (.found fact) ↔
    ∃ stated statement arch, Artifact.lastOf artifacts .releaseStatement = some stated ∧
      ReleaseStatement.ofLines? stated.lines = some statement ∧
      KnownArch findings stated arch ∧
      fact = .distribution ⟨Family.ofProduct statement.product, statement.version,
        statement.major, statement.minor, arch⟩
  isFound : (∃ fact, findings.outcome? .distribution = some (.found fact)) ↔
    ∃ stated, Artifact.lastOf artifacts .releaseStatement = some stated ∧
      (∃ statement, ReleaseStatement.ofLines? stated.lines = some statement) ∧
      ((∃ arch, findings.IdentifiesArch arch) ∨ ∃ arch, stated.metadata.arch = some arch)
  statement : ∀ statement, findings.outcome? (.reading .releaseStatement) =
      some (.found (.releaseStatement statement)) ↔
    ∃ stated, Artifact.lastOf artifacts .releaseStatement = some stated ∧
      ReleaseStatement.ofLines? stated.lines = some statement
  identity : ∀ identity, findings.outcome? (.reading .kernelIdentity) =
      some (.found (.kernelIdentity identity)) ↔
    identities ∧ ∃ artifact, Artifact.lastOf artifacts .kernelIdentity = some artifact ∧
      KernelIdentity.StatedBy artifact.lines identity
  unidentified : (∀ fact, findings.outcome? (.reading .kernelIdentity) ≠ some (.found fact)) ↔
    ¬ identities ∨ Artifact.lastOf artifacts .kernelIdentity = none ∨
      ∃ artifact, Artifact.lastOf artifacts .kernelIdentity = some artifact ∧
        KernelIdentity.Unstated artifact.lines

theorem Findings.identifiesArch_iff {findings : Findings} {arch : String} :
    findings.IdentifiesArch arch ↔
      ((findings.fact? (.reading .kernelIdentity)).bind Fact.kernelIdentity?).bind (·.arch) =
        some arch := by
  unfold IdentifiesArch Findings.fact?
  cases findings.outcome? (.reading .kernelIdentity) with
  | none => simp
  | some outcome =>
    cases outcome with
    | found fact => cases fact <;> simp [Outcome.fact?, Fact.kernelIdentity?]
    | absent absence => simp [Outcome.fact?]
    | failed failure => simp [Outcome.fact?]

theorem KnownArch.exists_iff {findings : Findings} {stated : Artifact} :
    (∃ arch, KnownArch findings stated arch) ↔
      (∃ arch, findings.IdentifiesArch arch) ∨ ∃ arch, stated.metadata.arch = some arch := by
  apply Iff.intro
  · intro h
    rcases h with ⟨arch, identifies | ⟨-, metadata⟩⟩
    · exact .inl ⟨arch, identifies⟩
    · exact .inr ⟨arch, metadata⟩
  · intro h
    by_cases hidentified : ∃ arch, findings.IdentifiesArch arch
    · rcases hidentified with ⟨arch, identifies⟩
      exact ⟨arch, .identified identifies⟩
    · rcases h.resolve_left hidentified with ⟨arch, metadata⟩
      exact ⟨arch, .collected (not_exists.1 hidentified) metadata⟩

namespace Schedule

variable {components : List Component} {schedule : Schedule} {artifacts : List Artifact}

theorem knownArch?_eq_some_iff {findings : Findings} {stated : Artifact} {arch : String}
    (hlast : Artifact.lastOf artifacts .releaseStatement = some stated) :
    Component.knownArch? (Artifact.latest? artifacts) findings = some arch ↔
      KnownArch findings stated arch := by
  have hmetadata : ((Artifact.latest? artifacts .releaseStatement).bind (·.metadata.arch)) =
      stated.metadata.arch := by
    rw [Artifact.latest?_eq_lastOf, hlast, Option.bind_some]
  rw [Component.knownArch?, hmetadata, Option.or_eq_some_iff, ← Findings.identifiesArch_iff,
    Option.eq_none_iff_forall_ne_some]
  simp only [ne_eq, ← Findings.identifiesArch_iff]
  apply Iff.intro
  · intro h
    rcases h with identifies | ⟨unidentified, metadata⟩
    · exact .identified identifies
    · exact .collected unidentified metadata
  · intro h
    rcases h with identifies | ⟨unidentified, metadata⟩
    · exact .inl identifies
    · exact .inr ⟨unidentified, metadata⟩

/-! ## The findings -/

section

variable (accepted : ofComponents components = .ok schedule) (artifacts : List Artifact)

include accepted

theorem found_distribution_iff_known (builtin : components ⊆ Component.builtins)
    (hmem : Component.distribution ∈ components) {fact : Fact} :
    (schedule.run artifacts).findings.outcome? .distribution = some (.found fact) ↔
      ∃ stated statement arch, Artifact.lastOf artifacts .releaseStatement = some stated ∧
        ReleaseStatement.ofLines? stated.lines = some statement ∧
        KnownArch (schedule.run artifacts).findings stated arch ∧
        fact = .distribution (Distribution.ofStatement statement arch) := by
  have hstatement := reading_releaseStatement_mem builtin accepted hmem
  rw [found_distribution_iff accepted artifacts hmem]
  apply Iff.intro
  · intro h
    rcases h with ⟨statement, arch, found, known, rfl⟩
    rcases (found_statement_iff accepted hstatement).1 found with ⟨stated, hlast, hread⟩
    exact ⟨stated, statement, arch, hlast, hread, (knownArch?_eq_some_iff hlast).1 known, rfl⟩
  · intro h
    rcases h with ⟨stated, statement, arch, hlast, hread, known, rfl⟩
    exact ⟨statement, arch, (found_statement_iff accepted hstatement).2 ⟨stated, hlast, hread⟩,
      (knownArch?_eq_some_iff hlast).2 known, rfl⟩

theorem found_identity_iff {identity : KernelIdentity}
    (builtin : components ⊆ Component.builtins) :
    (schedule.run artifacts).findings.outcome? (.reading .kernelIdentity) =
        some (.found (.kernelIdentity identity)) ↔
      Component.reading .kernelIdentity ∈ components ∧
      ∃ artifact, Artifact.lastOf artifacts .kernelIdentity = some artifact ∧
        KernelIdentity.StatedBy artifact.lines identity := by
  by_cases hmem : Component.reading .kernelIdentity ∈ components
  · rw [found_reading_iff accepted artifacts hmem, and_iff_right hmem]
    simp [Fact.ofLines?, KernelIdentity.ofLines?_eq_some_iff]
  · refine iff_of_false (fun found => ?_) fun h => hmem h.1
    -- an outcome would need a component that is not there
    rcases exists_registered accepted artifacts found with ⟨component, hcomponent, hproduces, -⟩
    have hbuiltin := Component.builtin_produces_mem builtin hcomponent
    rw [hproduces] at hbuiltin
    exact hmem hbuiltin

theorem not_found_identity_iff (builtin : components ⊆ Component.builtins) :
    (∀ fact, (schedule.run artifacts).findings.outcome? (.reading .kernelIdentity) ≠
        some (.found fact)) ↔
      Component.reading .kernelIdentity ∉ components ∨
      Artifact.lastOf artifacts .kernelIdentity = none ∨
      ∃ artifact, Artifact.lastOf artifacts .kernelIdentity = some artifact ∧
        KernelIdentity.Unstated artifact.lines := by
  apply Iff.intro
  · intro h
    by_cases hmem : Component.reading .kernelIdentity ∈ components
    · cases hlast : Artifact.lastOf artifacts .kernelIdentity with
      | none => exact .inr (.inl rfl)
      | some artifact =>
        refine .inr (.inr ⟨artifact, rfl, KernelIdentity.ofLines?_eq_none_iff.1 ?_⟩)
        apply Option.eq_none_iff_forall_ne_some.2
        intro identity hread
        exact h _ ((found_identity_iff accepted artifacts builtin).2
          ⟨hmem, artifact, hlast, KernelIdentity.ofLines?_eq_some_iff.1 hread⟩)
    · exact .inl hmem
  · intro h fact found
    rcases (typed_run accepted artifacts).hasForm found with ⟨identity, rfl⟩
    rcases (found_identity_iff accepted artifacts builtin).1 found with
      ⟨hmem, artifact, hlast, stated⟩
    rcases h with h | h | ⟨other, hother, unstated⟩
    · exact h hmem
    · rw [h] at hlast
      cases hlast
    · rw [hlast] at hother
      cases hother
      -- the same lines would state an identity and none
      have hread := KernelIdentity.ofLines?_eq_some_iff.2 stated
      rw [KernelIdentity.ofLines?_eq_none_iff.2 unstated] at hread
      cases hread

theorem tellsDistribution_run (builtin : components ⊆ Component.builtins)
    (hmem : Component.distribution ∈ components) :
    TellsDistribution (Component.reading .kernelIdentity ∈ components) artifacts
      (schedule.run artifacts).findings where
  found := fun _ => found_distribution_iff_known accepted artifacts builtin hmem
  isFound := by
    simp only [found_distribution_iff_known accepted artifacts builtin hmem,
      ← KnownArch.exists_iff]
    apply Iff.intro
    · intro h
      rcases h with ⟨_, stated, statement, arch, hlast, hread, known, -⟩
      exact ⟨stated, hlast, ⟨statement, hread⟩, arch, known⟩
    · intro h
      rcases h with ⟨stated, hlast, ⟨statement, hread⟩, arch, known⟩
      exact ⟨_, stated, statement, arch, hlast, hread, known, rfl⟩
  statement := fun _ =>
    found_statement_iff accepted (reading_releaseStatement_mem builtin accepted hmem)
  identity := fun _ => found_identity_iff accepted artifacts builtin
  unidentified := not_found_identity_iff accepted artifacts builtin

end

theorem ofComponents_identityless :
    ofComponents (Component.builtins.filter (·.produces ≠ .reading .kernelIdentity)) =
      .ok ⟨Component.builtins.filter (·.produces ≠ .reading .kernelIdentity)⟩ :=
  ofComponents_of_walk (by decide) (by decide) (by cbv)

-- Nothing requires the kernel identity, so the other components can do without it.
theorem exists_schedule_of_only_identity {config : Config}
    (only : ∀ kind ∈ config.disabled, kind = .reading .kernelIdentity) :
    ∃ schedule, config.schedule = .ok schedule := by
  unfold Config.schedule Config.components
  by_cases hdisabled : .reading .kernelIdentity ∈ config.disabled
  · have hfilter : ∀ component ∈ Component.builtins,
        (!config.disabled.contains component.produces) =
          decide (component.produces ≠ .reading .kernelIdentity) := by
      intro component _
      have hcontains : config.disabled.contains component.produces = true ↔
          component.produces = .reading .kernelIdentity := by
        rw [List.contains_iff_mem]
        exact ⟨only _, fun h => h ▸ hdisabled⟩
      rw [Bool.eq_iff_iff, Bool.not_eq_true', ← Bool.not_eq_true, hcontains, decide_eq_true_eq]
    rw [List.filter_congr hfilter]
    exact ⟨_, ofComponents_identityless⟩
  · have hnil : config.disabled = [] := by
      apply List.eq_nil_iff_forall_not_mem.2
      intro kind hkind
      exact hdisabled (only kind hkind ▸ hkind)
    have hall : ∀ component ∈ Component.builtins,
        (!config.disabled.contains component.produces) = true := by
      intro component _
      rw [hnil]
      rfl
    rw [List.filter_eq_self.2 hall]
    exact ⟨_, ofComponents_builtins⟩

/-- With all built-in components, or all but the one that reads kernel identities, the architecture
of the distribution is that of the kernel identity, and where none is found the one in the metadata
of the last release statement. -/
theorem config_schedule_tells_distribution {config : Config}
    (only : ∀ kind ∈ config.disabled, kind = .reading .kernelIdentity)
    (artifacts : List Artifact) :
    ∃ schedule, config.schedule = .ok schedule ∧
      TellsDistribution (.reading .kernelIdentity ∉ config.disabled) artifacts
        (schedule.run artifacts).findings := by
  rcases exists_schedule_of_only_identity only with ⟨schedule, accepted⟩
  have builtin : config.components ⊆ Component.builtins := List.filter_sublist.subset
  have enabled : Component.builtin .distribution ∈ config.components :=
    mem_components_iff.2 fun h => absurd (only _ h) (by decide)
  have tells := tellsDistribution_run accepted artifacts builtin enabled
  have hidentity : Component.builtin (.reading .kernelIdentity) ∈ config.components ↔ _ :=
    mem_components_iff
  exact ⟨schedule, accepted, propext hidentity ▸ tells⟩

/-- A configuration that leaves kernel identities out. -/
def identityDisabled : Config := { Config.default with disabled := [.reading .kernelIdentity] }

/-- Two release statements with metadata of their own, and a kernel identity. -/
def twiceStated : List Artifact :=
  [{ Artifact.ofText .releaseStatement "CentOS release 6.10 (Final)" with
      metadata := { arch := some "i386" } },
    { Artifact.ofText .releaseStatement "Red Hat Enterprise Linux release 8.4 (Ootpa)" with
      metadata := { arch := some "s390x" } },
    Artifact.ofText .kernelIdentity "Linux db01 4.18.0-305.el8.x86_64 #1 SMP x86_64"]

theorem last_statement_gives_arch :
    (∀ kind ∈ identityDisabled.disabled, kind = .reading .kernelIdentity) ∧
    ∃ schedule, identityDisabled.schedule = .ok schedule ∧
      (schedule.run twiceStated).findings.outcome? .distribution =
        some (.found (.distribution ⟨.rhel, "8.4", 8, some 4, "s390x"⟩)) := by
  have only : ∀ kind ∈ identityDisabled.disabled, kind = .reading .kernelIdentity := by decide
  rcases config_schedule_tells_distribution only twiceStated with ⟨schedule, accepted, tells⟩
  refine ⟨only, schedule, accepted, (tells.found _).2 ?_⟩
  have rhel : Family.ofProduct "Red Hat Enterprise Linux" = .rhel := by decide +kernel
  refine ⟨_, ⟨"Red Hat Enterprise Linux", "8.4", 8, some 4, some "Ootpa"⟩, "s390x", rfl,
    by decide +kernel, .collected ?_ rfl, by rw [rhel]⟩
  intro arch identifies
  rcases identifies with ⟨identity, found, -⟩
  exact ((tells.identity identity).1 found).1 (List.mem_singleton_self _)

end Schedule

end HostSurvey
