import HostSurvey.Derived.Subscription
import Mathlib.Tactic.ByContra

/-!
# Flags and the repositories they ask for

Every flag of a subscription asks for one repository, or for none where a release has no separate
application repositories (`Distribution.repoId?`). No two flags ask for the same repository, so one more
repository changes at most one flag, and nothing but the flags depends on the repositories.
-/

namespace HostSurvey

/-! ## Repository ids -/

namespace RepoScheme

theorem own_id {scheme : RepoScheme} (own : "rhel-".toList <+: scheme.lead.toList) (token : String)
    (tier : Tier) : "rhel-".toList <+: (scheme.id token tier).toList := by
  unfold id
  simp only [String.toList_append, List.append_assoc]
  exact own.trans (List.prefix_append _ _)

theorem own_base {major : Nat} {scheme : RepoScheme} (h : base? major = some scheme) :
    "rhel-".toList <+: scheme.lead.toList := by
  unfold base? at h
  split at h <;> cases h <;> decide

theorem own_appstream {major : Nat} {scheme : RepoScheme} (h : appstream? major = some scheme) :
    "rhel-".toList <+: scheme.lead.toList := by
  unfold appstream? at h
  split at h <;> cases h <;> decide

theorem major_of_base? {major : Nat} {scheme : RepoScheme} (h : base? major = some scheme) :
    major = 6 ∨ major = 7 ∨ major = 8 ∨ major = 9 := by
  unfold base? at h
  split at h
  · omega
  · omega
  · omega
  · omega
  · cases h

theorem exists_appstream? {major : Nat} (h : major = 8 ∨ major = 9) :
    ∃ scheme, appstream? major = some scheme := by
  rcases h with rfl | rfl
  · exact ⟨_, rfl⟩
  · exact ⟨_, rfl⟩

theorem appstream?_eq_none {major : Nat} (h : major = 6 ∨ major = 7) :
    appstream? major = none := by
  rcases h with rfl | rfl
  · rfl
  · rfl

theorem marker_inj {tier other : Tier} (h : tier.marker = other.marker) : tier = other := by
  revert h
  cases tier <;> cases other <;> decide

theorem id_inj {scheme : RepoScheme} {token : String} {tier other : Tier}
    (h : scheme.id token tier = scheme.id token other) : tier = other := by
  unfold id at h
  rw [String.append_left_inj, String.append_right_inj] at h
  exact marker_inj h

-- The ids of a release have one lead, after which the architecture is followed by different words.
theorem id_base_ne_id_appstream {major : Nat} {base appstream : RepoScheme}
    (hbase : base? major = some base) (happstream : appstream? major = some appstream)
    (token : String) (tier other : Tier) : base.id token tier ≠ appstream.id token other := by
  have hwords : ∀ lead : String, lead ++ token ++ "-baseos" ++ tier.marker ++ "rpms" ≠
      lead ++ token ++ "-appstream" ++ other.marker ++ "rpms" := by
    intro lead h
    have hchars := congrArg String.toList h
    simp only [String.toList_append, List.append_assoc] at hchars
    cases List.append_cancel_left (List.append_cancel_left hchars)
  unfold appstream? at happstream
  split at happstream
  · cases hbase
    cases happstream
    exact hwords _
  · cases hbase
    cases happstream
    exact hwords _
  · cases happstream

end RepoScheme

/-- The repositories that flags are about. -/
inductive Channel
  | base
  | appstream
deriving DecidableEq

def Channel.scheme? : Channel → Nat → Option RepoScheme
  | .base => RepoScheme.base?
  | .appstream => RepoScheme.appstream?

/-- The id of the repository that the flag of a tier asks for. -/
def Distribution.repoId? (host : Distribution) (channel : Channel) (tier : Tier) : Option String := do
  let scheme ← channel.scheme? host.major
  let token ← RepoScheme.archToken? host.major host.arch
  some (scheme.id token tier)

theorem Distribution.repoId?_eq_some_iff {host : Distribution} {channel : Channel} {tier : Tier}
    {id : String} : host.repoId? channel tier = some id ↔
      ∃ scheme token, channel.scheme? host.major = some scheme ∧
        RepoScheme.archToken? host.major host.arch = some token ∧ scheme.id token tier = id := by
  simp only [repoId?, bind, Option.bind_eq_some_iff, Option.some.injEq]
  apply Iff.intro
  · intro h
    rcases h with ⟨scheme, hscheme, token, htoken, hid⟩
    exact ⟨scheme, token, hscheme, htoken, hid⟩
  · intro h
    rcases h with ⟨scheme, token, hscheme, htoken, hid⟩
    exact ⟨scheme, hscheme, token, htoken, hid⟩

/-- The ids that the flags of a host ask for are pairwise distinct. -/
theorem Distribution.repoId?_inj {host : Distribution} {channel channel' : Channel}
    {tier tier' : Tier} {id : String} (h : host.repoId? channel tier = some id)
    (h' : host.repoId? channel' tier' = some id) : channel = channel' ∧ tier = tier' := by
  rcases repoId?_eq_some_iff.1 h with ⟨scheme, token, hscheme, htoken, hid⟩
  rcases repoId?_eq_some_iff.1 h' with ⟨scheme', token', hscheme', htoken', hid'⟩
  cases htoken.symm.trans htoken'
  have heq : scheme.id token tier = scheme'.id token tier' := hid.trans hid'.symm
  cases channel with
  | base =>
    cases channel' with
    | base =>
      cases hscheme.symm.trans hscheme'
      exact ⟨rfl, RepoScheme.id_inj heq⟩
    | appstream => exact absurd heq (RepoScheme.id_base_ne_id_appstream hscheme hscheme' token tier tier')
  | appstream =>
    cases channel' with
    | base =>
      exact absurd heq.symm (RepoScheme.id_base_ne_id_appstream hscheme' hscheme token tier' tier)
    | appstream =>
      cases hscheme.symm.trans hscheme'
      exact ⟨rfl, RepoScheme.id_inj heq⟩

/-! ## Classification -/

namespace Subscription

variable {host : Distribution} {table : RepoTable} {pinned : Option PinnedRelease}
  {subscription : Subscription}

/-- What classification takes from a table and a pinned release under a naming scheme. -/
structure Reflects (subscription : Subscription) (major : Nat) (base : RepoScheme) (token : String)
    (table : RepoTable) (pinned : Option PinnedRelease) : Prop where
  base : subscription.base = base.enabledTiers token table
  appstream : subscription.appstream =
    match RepoScheme.appstream? major with
    | none => TierFlags.full
    | some scheme => scheme.enabledTiers token table
  lock : subscription.lock = pinned.map (·.set)
  lockMajor : subscription.lockMajor = pinned.bind (·.major)
  lockMinor : subscription.lockMinor = pinned.bind (·.minor)
  isMajorLocked : subscription.isMajorLocked = subscription.lockMajor.isSome
  isMinorLocked : subscription.isMinorLocked =
    (subscription.lockMajor.isSome && subscription.lockMinor.isSome)

theorem exists_classify? {base : RepoScheme} {token : String} (table : RepoTable)
    (pinned : Option PinnedRelease) (family : host.family = .rhel)
    (hbase : RepoScheme.base? host.major = some base)
    (htoken : RepoScheme.archToken? host.major host.arch = some token) :
    ∃ subscription, classify? host table pinned = some subscription ∧
      subscription.Reflects host.major base token table pinned := by
  rw [classify?, family, hbase, htoken]
  exact ⟨_, rfl, ⟨rfl, rfl, rfl, rfl, rfl, rfl, rfl⟩⟩

theorem of_classify? (h : classify? host table pinned = some subscription) :
    host.family = .rhel ∧ ∃ base token, RepoScheme.base? host.major = some base ∧
      RepoScheme.archToken? host.major host.arch = some token := by
  unfold classify? at h
  rcases Option.bind_eq_some_iff.1 h with ⟨_, hguard, h⟩
  rcases Option.bind_eq_some_iff.1 h with ⟨base, hbase, h⟩
  rcases Option.bind_eq_some_iff.1 h with ⟨token, htoken, -⟩
  refine ⟨?_, base, token, hbase, htoken⟩
  unfold guard at hguard
  split at hguard
  · assumption
  · cases hguard

/-- The flag of a tier in one of the two channels. -/
def flag (subscription : Subscription) : Channel → Tier → Bool
  | .base, tier => subscription.base.get tier
  | .appstream, tier => subscription.appstream.get tier

theorem flag_eq_true_iff (h : classify? host table pinned = some subscription) (channel : Channel)
    (tier : Tier) : subscription.flag channel tier = true ↔
      ∀ id ∈ host.repoId? channel tier, id ∈ table.rhelRepos := by
  rcases of_classify? h with ⟨family, base, token, hbase, htoken⟩
  rcases exists_classify? table pinned family hbase htoken with ⟨same, hsame, reflects⟩
  cases h.symm.trans hsame
  have hscheme : ∀ scheme : RepoScheme, channel.scheme? host.major = some scheme →
      ((scheme.enabledTiers token table).get tier = true ↔
        ∀ id ∈ host.repoId? channel tier, id ∈ table.rhelRepos) := by
    intro scheme hscheme
    have hid : host.repoId? channel tier = some (scheme.id token tier) :=
      Distribution.repoId?_eq_some_iff.2 ⟨scheme, token, hscheme, htoken, rfl⟩
    rw [hid, RepoScheme.enabledTiers, TierFlags.get_ofTest, RepoTable.isEnabled,
      List.contains_iff_mem]
    simp
  cases channel with
  | base =>
    rw [flag, reflects.base]
    exact hscheme base hbase
  | appstream =>
    rw [flag, reflects.appstream]
    cases happstream : RepoScheme.appstream? host.major with
    | none =>
      have hid : host.repoId? .appstream tier = none := by
        rw [Distribution.repoId?, Channel.scheme?, happstream]
        rfl
      rw [hid, TierFlags.full, TierFlags.get_ofTest]
      simp
    | some scheme => exact hscheme scheme happstream

theorem repoIds_of_classify? (h : classify? host table pinned = some subscription) :
    host.repoId? .base .standard = some subscription.baseRepoId ∧
    host.repoId? .appstream .standard = subscription.appstreamRepoId ∧
    subscription.rhelRepos = table.rhelRepos := by
  rcases of_classify? h with ⟨family, base, token, hbase, htoken⟩
  rw [classify?, family, hbase, htoken] at h
  cases h
  refine ⟨Distribution.repoId?_eq_some_iff.2 ⟨base, token, hbase, htoken, rfl⟩, ?_, rfl⟩
  rw [Distribution.repoId?, Channel.scheme?, htoken]
  cases RepoScheme.appstream? host.major <;> rfl

theorem isMajorLocked_of_isMinorLocked (h : classify? host table pinned = some subscription)
    (hminor : subscription.isMinorLocked = true) : subscription.isMajorLocked = true := by
  rcases of_classify? h with ⟨family, base, token, hbase, htoken⟩
  rcases exists_classify? table pinned family hbase htoken with ⟨same, hsame, reflects⟩
  cases h.symm.trans hsame
  rw [reflects.isMinorLocked, Bool.and_eq_true] at hminor
  rw [reflects.isMajorLocked]
  exact hminor.1

-- What a host has and what it is pinned to decide whether it has a subscription, and all of it but
-- what the repositories say.
theorem eq_of_classify? {table other : RepoTable} {subscription gained : Subscription}
    (h : classify? host table pinned = some subscription)
    (h' : classify? host other pinned = some gained) :
    { gained with
      base := subscription.base
      appstream := subscription.appstream
      rhelRepos := subscription.rhelRepos } = subscription := by
  rcases of_classify? h with ⟨family, base, token, hbase, htoken⟩
  rw [classify?, family, hbase, htoken] at h h'
  cases h
  cases h'
  rfl

theorem isSome_classify?_of_isSome (other : RepoTable) (h : (classify? host table pinned).isSome) :
    (classify? host other pinned).isSome := by
  rcases Option.isSome_iff_exists.1 h with ⟨subscription, hclassify⟩
  rcases of_classify? hclassify with ⟨family, base, token, hbase, htoken⟩
  rcases exists_classify? other pinned family hbase htoken with ⟨gained, hgained, -⟩
  exact Option.isSome_iff_exists.2 ⟨gained, hgained⟩

theorem flag_mono {table other : RepoTable} {subscription gained : Subscription}
    (h : classify? host table pinned = some subscription)
    (h' : classify? host other pinned = some gained)
    (hsub : ∀ repo ∈ table.rhelRepos, repo ∈ other.rhelRepos) {channel : Channel} {tier : Tier}
    (hflag : subscription.flag channel tier = true) : gained.flag channel tier = true := by
  rw [flag_eq_true_iff h']
  intro id hid
  exact hsub id ((flag_eq_true_iff h channel tier).1 hflag id hid)

-- A flag that changes asks for the one repository that is added.
theorem repoId?_of_changed {table other : RepoTable} {subscription gained : Subscription}
    (h : classify? host table pinned = some subscription)
    (h' : classify? host other pinned = some gained) {added : String}
    (hadded : ∀ repo, repo ∈ other.rhelRepos ↔ repo ∈ table.rhelRepos ∨ repo = added)
    {channel : Channel} {tier : Tier}
    (hchanged : subscription.flag channel tier ≠ gained.flag channel tier) :
    host.repoId? channel tier = some added := by
  by_contra hid
  apply hchanged
  rw [Bool.eq_iff_iff, flag_eq_true_iff h, flag_eq_true_iff h']
  apply forall₂_congr
  intro id hmem
  rw [hadded]
  apply Iff.intro
  · exact .inl
  · intro h
    rcases h with hrepo | rfl
    · exact hrepo
    · exact absurd hmem hid

/-- The repositories have no say in whether a host has a subscription, and more of them take no flag
away. One more repository changes one flag at most, and only the flags of a subscription and its list of
repositories tell what is enabled. -/
theorem classify?_monotone_in_repos (host : Distribution) (pinned : Option PinnedRelease)
    (table other : RepoTable) :
    (classify? host table pinned).isSome = (classify? host other pinned).isSome ∧
    ∀ subscription gained, classify? host table pinned = some subscription →
      classify? host other pinned = some gained →
      { gained with
        base := subscription.base
        appstream := subscription.appstream
        rhelRepos := subscription.rhelRepos } = subscription ∧
      subscription.rhelRepos = table.rhelRepos ∧
      ((∀ repo ∈ table.rhelRepos, repo ∈ other.rhelRepos) →
        ∀ channel tier, subscription.flag channel tier = true → gained.flag channel tier = true) ∧
      (∀ added, (∀ repo, repo ∈ other.rhelRepos ↔ repo ∈ table.rhelRepos ∨ repo = added) →
        ∀ channel tier channel' tier',
          subscription.flag channel tier ≠ gained.flag channel tier →
          subscription.flag channel' tier' ≠ gained.flag channel' tier' →
          channel = channel' ∧ tier = tier') ∧
      (subscription.base.base = true ↔ subscription.baseRepoId ∈ subscription.rhelRepos) ∧
      (subscription.appstream.base = true ↔ subscription.appstreamRepoId = none ∨
        ∃ id ∈ subscription.appstreamRepoId, id ∈ subscription.rhelRepos) ∧
      (subscription.isMinorLocked = true → subscription.isMajorLocked = true) := by
  apply And.intro
  · rw [Bool.eq_iff_iff]
    exact ⟨isSome_classify?_of_isSome other, isSome_classify?_of_isSome table⟩
  · intro subscription gained h h'
    rcases repoIds_of_classify? h with ⟨hbaseId, happstreamId, hrepos⟩
    refine ⟨eq_of_classify? h h', hrepos, ?_, ?_, ?_, ?_, ?_⟩
    · intro hsub channel tier
      exact flag_mono h h' hsub
    · intro added hadded channel tier channel' tier' hchanged hchanged'
      exact Distribution.repoId?_inj (repoId?_of_changed h h' hadded hchanged)
        (repoId?_of_changed h h' hadded hchanged')
    · have hflag : subscription.base.base = true ↔
          ∀ id ∈ host.repoId? .base .standard, id ∈ table.rhelRepos :=
        flag_eq_true_iff h .base .standard
      rw [hflag, hbaseId, hrepos]
      simp
    · have hflag : subscription.appstream.base = true ↔
          ∀ id ∈ host.repoId? .appstream .standard, id ∈ table.rhelRepos :=
        flag_eq_true_iff h .appstream .standard
      rw [hflag, happstreamId, hrepos]
      cases subscription.appstreamRepoId with
      | none => simp
      | some id => simp
    · exact isMajorLocked_of_isMinorLocked h

def eightHost : Distribution := ⟨.rhel, "8.4", 8, some 4, "x86_64"⟩

def baseTable : RepoTable := ⟨[], ["rhel-8-for-x86_64-baseos-rpms"]⟩

def extendedUpdatesTable : RepoTable :=
  ⟨[], ["rhel-8-for-x86_64-appstream-eus-rpms", "rhel-8-for-x86_64-baseos-rpms"]⟩

/-- Extended updates of applications are one flag of their own. -/
theorem extended_updates_change_one_flag :
    ∃ subscription gained, classify? eightHost baseTable none = some subscription ∧
      classify? eightHost extendedUpdatesTable none = some gained ∧
      subscription.base.base = true ∧ gained.base.base = true ∧
      subscription.appstream.eus = false ∧ gained.appstream.eus = true ∧
      ∀ channel tier, subscription.flag channel tier ≠ gained.flag channel tier →
        channel = .appstream ∧ tier = .eus := by
  have hadded : ∀ repo, repo ∈ extendedUpdatesTable.rhelRepos ↔
      repo ∈ baseTable.rhelRepos ∨ repo = "rhel-8-for-x86_64-appstream-eus-rpms" := by
    intro repo
    simp [extendedUpdatesTable, baseTable, or_comm]
  rcases classify?_monotone_in_repos eightHost none baseTable extendedUpdatesTable with ⟨-, told⟩
  rcases told _ _ rfl rfl with ⟨-, -, mono, one, base, -, -⟩
  have hbase := base.2 (by decide +kernel)
  refine ⟨_, _, rfl, rfl, hbase, ?_, ?_, ?_, ?_⟩
  · exact mono (fun repo hrepo => (hadded repo).2 (.inl hrepo)) .base .standard hbase
  · decide +kernel
  · decide +kernel
  · intro channel tier hchanged
    exact one _ hadded channel tier .appstream .eus hchanged (by decide +kernel)

end Subscription

end HostSurvey
