import HostSurvey.Proofs.Builtin.Faults
import HostSurvey.Proofs.RepoTable.Rows
import HostSurvey.Proofs.Subscription.Classification

/-!
# From artifacts to entitlements

Whether a host has a subscription, and which tiers it is entitled to, is told by the last artifacts
alone: the release statement with its metadata, the kernel identity, the table of repositories and
the pinned release.
-/

namespace HostSurvey

theorem Family.ofProduct_eq_rhel_iff {product : String} :
    ofProduct product = .rhel ↔
      "red hat enterprise linux".toList <+: product.toList.map Char.toLower := by
  rw [← List.isPrefixOf_iff_prefix]
  simp only [ofProduct]
  apply Iff.intro
  · intro h
    split at h
    · next hrhel => exact hrhel
    · split at h
      · cases h
      · split at h <;> cases h
  · intro h
    exact if_pos h

/-! ## What the artifacts say -/

/-- The architecture in the last kernel identity, or else in the metadata of a release statement. -/
def hostArch? (artifacts : List Artifact) (stated : Artifact) : Option String :=
  (((Artifact.lastOf artifacts .kernelIdentity).bind fun artifact =>
    KernelIdentity.ofLines? artifact.lines).bind (·.arch)).or stated.metadata.arch

/-- The release that the last artifact of that category says the subscription is pinned to. -/
def hostPin? (artifacts : List Artifact) : Option PinnedRelease :=
  (Artifact.lastOf artifacts .pinnedRelease).bind fun artifact =>
    PinnedRelease.ofLines? artifact.lines

/-- What the last artifacts have to say for a host to have a subscription. -/
structure Grounds (artifacts : List Artifact) where
  stated : Artifact
  statement : ReleaseStatement
  arch : String
  tabled : Artifact
  base : RepoScheme
  token : String
  last_stated : Artifact.lastOf artifacts .releaseStatement = some stated
  reads : ReleaseStatement.ofLines? stated.lines = some statement
  enterprise : "red hat enterprise linux".toList <+: statement.product.toList.map Char.toLower
  known : hostArch? artifacts stated = some arch
  last_tabled : Artifact.lastOf artifacts .repoTable = some tabled
  usable : ∃ id, RepoTable.Lists tabled.lines id
  base_named : RepoScheme.base? statement.major = some base
  arch_named : RepoScheme.archToken? statement.major arch = some token

namespace Schedule

open Component (builtin_mem_builtins)

variable {components : List Component} {schedule : Schedule} {artifacts : List Artifact}

theorem knownArch?_eq (accepted : ofComponents components = .ok schedule)
    (hmem : Component.reading .kernelIdentity ∈ components) {stated : Artifact}
    (hlast : Artifact.lastOf artifacts .releaseStatement = some stated) :
    Component.knownArch? (Artifact.latest? artifacts) (schedule.run artifacts).findings =
      hostArch? artifacts stated := by
  have hread : ∀ lines, (Fact.ofLines? .kernelIdentity lines).bind Fact.kernelIdentity? =
      KernelIdentity.ofLines? lines := by
    intro lines
    rw [Fact.ofLines?]
    cases KernelIdentity.ofLines? lines <;> rfl
  rw [Component.knownArch?, fact?_reading_bind accepted artifacts hmem hread,
    Artifact.latest?_eq_lastOf, hlast]
  rfl

theorem fact?_pinnedRelease (accepted : ofComponents components = .ok schedule)
    (hmem : Component.reading .pinnedRelease ∈ components) :
    ((schedule.run artifacts).findings.fact? (.reading .pinnedRelease)).bind Fact.pinnedRelease? =
      hostPin? artifacts := by
  have hread : ∀ lines, (Fact.ofLines? .pinnedRelease lines).bind Fact.pinnedRelease? =
      PinnedRelease.ofLines? lines := by
    intro lines
    rw [Fact.ofLines?]
    cases PinnedRelease.ofLines? lines <;> rfl
  exact fact?_reading_bind accepted artifacts hmem hread

theorem found_statement_iff (accepted : ofComponents components = .ok schedule)
    (hmem : Component.reading .releaseStatement ∈ components) {statement : ReleaseStatement} :
    (schedule.run artifacts).findings.outcome? (.reading .releaseStatement) =
        some (.found (.releaseStatement statement)) ↔
      ∃ stated, Artifact.lastOf artifacts .releaseStatement = some stated ∧
        ReleaseStatement.ofLines? stated.lines = some statement := by
  rw [found_reading_iff accepted artifacts hmem]
  simp [Fact.ofLines?]

theorem found_table_iff (accepted : ofComponents components = .ok schedule)
    (hmem : Component.reading .repoTable ∈ components) {table : RepoTable} :
    (schedule.run artifacts).findings.outcome? (.reading .repoTable) =
        some (.found (.repoTable table)) ↔
      ∃ tabled, Artifact.lastOf artifacts .repoTable = some tabled ∧
        RepoTable.ofLines? tabled.lines = some table := by
  rw [found_reading_iff accepted artifacts hmem]
  simp [Fact.ofLines?]

theorem grounds_of_found {fact : Fact}
    (h : ((⟨Component.builtins⟩ : Schedule).run artifacts).findings.outcome? .subscription =
      some (.found fact)) : Nonempty (Grounds artifacts) := by
  have accepted := ofComponents_builtins
  rcases (found_subscription_iff accepted artifacts (builtin_mem_builtins .subscription)).1 h with
    ⟨host, table, subscription, found, tabled, hclassify, -⟩
  have hdistribution :=
    (found_distribution_iff accepted artifacts (builtin_mem_builtins .distribution)).1 found
  rcases hdistribution with ⟨statement, arch, hstatement, harch, hhost⟩
  cases hhost
  have hlatest :=
    (found_statement_iff accepted (builtin_mem_builtins (.reading .releaseStatement))).1 hstatement
  rcases hlatest with ⟨stated, hlast, hread⟩
  rcases (found_table_iff accepted (builtin_mem_builtins (.reading .repoTable))).1 tabled with
    ⟨listed, hlisted, htable⟩
  rcases Subscription.of_classify? hclassify with ⟨family, base, token, hbase, htoken⟩
  rw [knownArch?_eq accepted (builtin_mem_builtins (.reading .kernelIdentity)) hlast] at harch
  exact ⟨{
    stated, statement, arch, tabled := listed, base, token
    last_stated := hlast
    reads := hread
    enterprise := Family.ofProduct_eq_rhel_iff.1 family
    known := harch
    last_tabled := hlisted
    usable := (RepoTable.ofLines?_eq_some_iff.1 htable).1
    base_named := hbase
    arch_named := htoken }⟩

theorem found_of_grounds (grounds : Grounds artifacts) :
    ∃ subscription table,
      ((⟨Component.builtins⟩ : Schedule).run artifacts).findings.outcome? .subscription =
        some (.found (.subscription subscription)) ∧
      RepoTable.ofLines? grounds.tabled.lines = some table ∧
      subscription.Reflects grounds.statement.major grounds.base grounds.token table
        (hostPin? artifacts) := by
  have accepted := ofComponents_builtins
  have hstatement :=
    (found_statement_iff accepted (builtin_mem_builtins (.reading .releaseStatement))).2
      ⟨grounds.stated, grounds.last_stated, grounds.reads⟩
  have harch := (knownArch?_eq accepted (builtin_mem_builtins (.reading .kernelIdentity))
    grounds.last_stated).trans grounds.known
  have hhost := (found_distribution_iff accepted artifacts (builtin_mem_builtins .distribution)).2
    ⟨grounds.statement, grounds.arch, hstatement, harch, rfl⟩
  have hread := RepoTable.ofLines?_eq_some_iff.2 ⟨grounds.usable, rfl⟩
  have htable := (found_table_iff accepted (builtin_mem_builtins (.reading .repoTable))).2
    ⟨grounds.tabled, grounds.last_tabled, hread⟩
  have family : (Distribution.ofStatement grounds.statement grounds.arch).family = .rhel :=
    Family.ofProduct_eq_rhel_iff.2 grounds.enterprise
  rcases Subscription.exists_classify? _
    (hostPin? artifacts) family grounds.base_named grounds.arch_named with
    ⟨subscription, hclassify, reflects⟩
  rw [← fact?_pinnedRelease accepted (builtin_mem_builtins (.reading .pinnedRelease))] at hclassify
  exact ⟨subscription, _,
    (found_subscription_iff accepted artifacts (builtin_mem_builtins .subscription)).2
      ⟨_, _, _, hhost, htable, hclassify, rfl⟩, hread, reflects⟩

/-- In a run of all built-in components the subscription never fails, and it is found exactly when
there are grounds. Its flags are then told by the ids in the repository table, and its lock by the
pinned release. -/
theorem builtin_subscription_told_by_artifacts (artifacts : List Artifact) :
    ofComponents Component.builtins = .ok ⟨Component.builtins⟩ ∧
    (∀ failure, ((⟨Component.builtins⟩ : Schedule).run artifacts).findings.outcome? .subscription ≠
      some (.failed failure)) ∧
    ((∃ fact, ((⟨Component.builtins⟩ : Schedule).run artifacts).findings.outcome? .subscription =
      some (.found fact)) ↔ Nonempty (Grounds artifacts)) ∧
    ∀ grounds : Grounds artifacts, ∃ subscription,
      ((⟨Component.builtins⟩ : Schedule).run artifacts).findings.outcome? .subscription =
        some (.found (.subscription subscription)) ∧
      (∀ tier, subscription.base.get tier = true ↔
        RepoTable.Enables grounds.tabled.lines (grounds.base.id grounds.token tier)) ∧
      (grounds.statement.major = 6 ∨ grounds.statement.major = 7 ∨ grounds.statement.major = 8 ∨
        grounds.statement.major = 9) ∧
      (grounds.statement.major = 8 ∨ grounds.statement.major = 9 →
        ∃ scheme, RepoScheme.appstream? grounds.statement.major = some scheme ∧
          ∀ tier, subscription.appstream.get tier = true ↔
            RepoTable.Enables grounds.tabled.lines (scheme.id grounds.token tier)) ∧
      (grounds.statement.major = 6 ∨ grounds.statement.major = 7 →
        ∀ tier, subscription.appstream.get tier = true) ∧
      subscription.lock = (hostPin? artifacts).map (·.set) ∧
      subscription.lockMajor = (hostPin? artifacts).bind (·.major) ∧
      subscription.lockMinor = (hostPin? artifacts).bind (·.minor) ∧
      subscription.isMajorLocked = subscription.lockMajor.isSome ∧
      subscription.isMinorLocked =
        (subscription.lockMajor.isSome && subscription.lockMinor.isSome) := by
  refine ⟨ofComponents_builtins, ?_, ⟨?_, ?_⟩, ?_⟩
  · intro failure h
    cases eq_memory_of_failed (List.Subset.refl _) ofComponents_builtins artifacts h
  · intro h
    rcases h with ⟨fact, h⟩
    exact grounds_of_found h
  · intro h
    rcases h with ⟨grounds⟩
    rcases found_of_grounds grounds with ⟨subscription, -, found, -, -⟩
    exact ⟨_, found⟩
  · intro grounds
    rcases found_of_grounds grounds with ⟨subscription, table, found, hread, reflects⟩
    -- a scheme of the distribution's own repositories asks what the table lists
    have hflags : ∀ scheme : RepoScheme, "rhel-".toList <+: scheme.lead.toList → ∀ tier,
        (scheme.enabledTiers grounds.token table).get tier = true ↔
          RepoTable.Enables grounds.tabled.lines (scheme.id grounds.token tier) := by
      intro scheme own tier
      rw [RepoScheme.enabledTiers, TierFlags.get_ofTest]
      exact RepoTable.isEnabled_iff hread (RepoScheme.own_id own _ _)
    refine ⟨subscription, found, ?_, ?_, ?_, ?_, reflects.lock, reflects.lockMajor,
      reflects.lockMinor, reflects.isMajorLocked, reflects.isMinorLocked⟩
    · intro tier
      rw [reflects.base]
      exact hflags _ (RepoScheme.own_base grounds.base_named) tier
    · exact RepoScheme.major_of_base? grounds.base_named
    · intro hmajor
      rcases RepoScheme.exists_appstream? hmajor with ⟨scheme, hscheme⟩
      refine ⟨scheme, hscheme, fun tier => ?_⟩
      rw [reflects.appstream, hscheme]
      exact hflags scheme (RepoScheme.own_appstream hscheme) tier
    · intro hmajor tier
      rw [reflects.appstream, RepoScheme.appstream?_eq_none hmajor]
      exact TierFlags.get_ofTest _ tier

def extendedStatement : Artifact :=
  Artifact.ofText .releaseStatement "Red Hat Enterprise Linux release 8.4 (Ootpa)"

def extendedTable : Artifact where
  category := .repoTable
  lines := ["repo id  repo name", "!rhel-8-for-x86_64-baseos-eus-rpms/8.4  BaseOS",
    "*rhel-8-for-x86_64-appstream-eus-rpms  AppStream", "repolist: 2"]

/-- The artifacts of a host that is pinned to release 8.4 and has extended updates enabled. -/
def extendedHost : List Artifact :=
  [extendedStatement, Artifact.ofText .kernelIdentity "Linux db01 4.18.0-305.el8.x86_64",
    extendedTable, Artifact.ofText .pinnedRelease "Release: 8.4"]

theorem extendedTable_lists :
    RepoTable.Lists extendedTable.lines "rhel-8-for-x86_64-baseos-eus-rpms/8.4".toList ∧
    RepoTable.Lists extendedTable.lines "rhel-8-for-x86_64-appstream-eus-rpms".toList :=
  ⟨RepoTable.mem_ids_iff.1 (by decide +kernel), RepoTable.mem_ids_iff.1 (by decide +kernel)⟩

def extendedGrounds : Grounds extendedHost where
  stated := extendedStatement
  statement := ⟨"Red Hat Enterprise Linux", "8.4", 8, some 4, some "Ootpa"⟩
  arch := "x86_64"
  tabled := extendedTable
  base := ⟨"rhel-8-for-", "-baseos"⟩
  token := "x86_64"
  last_stated := rfl
  reads := by decide +kernel
  enterprise := by decide +kernel
  known := by decide +kernel
  last_tabled := rfl
  usable := ⟨_, extendedTable_lists.1⟩
  base_named := rfl
  arch_named := rfl

theorem extended_host_entitled :
    ∃ subscription,
      ((⟨Component.builtins⟩ : Schedule).run extendedHost).findings.outcome? .subscription =
        some (.found (.subscription subscription)) ∧
      subscription.base.get .eus = true ∧ subscription.appstream.get .eus = true ∧
      subscription.lock = some "8.4" := by
  rcases builtin_subscription_told_by_artifacts extendedHost with ⟨-, -, -, told⟩
  rcases told extendedGrounds with ⟨subscription, found, base, -, appstream, -, lock, -⟩
  rcases appstream (.inl rfl) with ⟨scheme, hscheme, appstream⟩
  cases hscheme
  refine ⟨subscription, found, ?_, ?_, ?_⟩
  · exact (base .eus).2 ⟨_, extendedTable_lists.1, by decide +kernel⟩
  · exact (appstream .eus).2 ⟨_, extendedTable_lists.2, by decide +kernel⟩
  · rw [lock]
    decide +kernel

end Schedule

end HostSurvey
