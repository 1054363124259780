import HostSurvey.Derived.Distribution
import HostSurvey.Reading.PinnedRelease
import HostSurvey.Reading.RepoTable

/-!
# Subscriptions

The support tiers that a host is entitled to are read off the repositories that are enabled on it.
For each major release there is a naming scheme, which makes a repository id of the architecture
and the tier; releases since 8 have separate repositories for applications, and for those before 8
every tier of them counts as given.
-/

namespace HostSurvey

/-- A support level whose content has repositories of its own. -/
inductive Tier
  | standard
  | eus
  | els
  | aus
  | tus
  | e4s
deriving DecidableEq, Inhabited

namespace Tier

def all : List Tier := [standard, eus, els, aus, tus, e4s]

def name : Tier → String
  | standard => "standard"
  | eus => "eus"
  | els => "els"
  | aus => "aus"
  | tus => "tus"
  | e4s => "e4s"

/-- What stands for a tier in a repository id. -/
def marker : Tier → String
  | standard => "-"
  | eus => "-eus-"
  | els => "-els-"
  | aus => "-aus-"
  | tus => "-tus-"
  | e4s => "-e4s-"

end Tier

/-- For each tier, whether it is given. -/
structure TierFlags where
  base : Bool
  eus : Bool
  els : Bool
  aus : Bool
  tus : Bool
  e4s : Bool
deriving DecidableEq

namespace TierFlags

def ofTest (test : Tier → Bool) : TierFlags :=
  ⟨test .standard, test .eus, test .els, test .aus, test .tus, test .e4s⟩

def full : TierFlags := ofTest fun _ => true

def get (flags : TierFlags) : Tier → Bool
  | .standard => flags.base
  | .eus => flags.eus
  | .els => flags.els
  | .aus => flags.aus
  | .tus => flags.tus
  | .e4s => flags.e4s

def tiers (flags : TierFlags) : List Tier := Tier.all.filter flags.get

@[simp] theorem get_ofTest (test : Tier → Bool) (tier : Tier) : (ofTest test).get tier = test tier := by
  cases tier <;> rfl

end TierFlags

/-- The naming scheme of repositories: what stands before the architecture and after it. -/
structure RepoScheme where
  lead : String
  infixText : String
deriving DecidableEq

namespace RepoScheme

def id (scheme : RepoScheme) (arch : String) (tier : Tier) : String :=
  scheme.lead ++ arch ++ scheme.infixText ++ tier.marker ++ "rpms"

/-- The scheme of the base repositories of a major release. -/
def base? : Nat → Option RepoScheme
  | 9 => some ⟨"rhel-9-for-", "-baseos"⟩
  | 8 => some ⟨"rhel-8-for-", "-baseos"⟩
  | 7 => some ⟨"rhel-7-", ""⟩
  | 6 => some ⟨"rhel-6-", ""⟩
  | _ => none

/-- The scheme of the application repositories of a major release that has separate ones. -/
def appstream? : Nat → Option RepoScheme
  | 9 => some ⟨"rhel-9-for-", "-appstream"⟩
  | 8 => some ⟨"rhel-8-for-", "-appstream"⟩
  | _ => none

/-- What stands for an architecture in the repository ids of a major release. -/
def archToken? (major : Nat) (arch : String) : Option String :=
  if major = 8 ∨ major = 9 then
    if arch = "x86_64" ∨ arch = "ppc64le" ∨ arch = "s390x" ∨ arch = "aarch64" then some arch
    else none
  else if major = 7 then
    if arch = "x86_64" then some "server"
    else if arch = "ppc64" then some "for-power"
    else if arch = "ppc64le" then some "for-power-le"
    else if arch = "s390x" then some "for-system-z"
    else none
  else if major = 6 then
    if arch = "i686" ∨ arch = "x86_64" then some "server"
    else if arch = "ppc64" then some "for-power"
    else if arch = "s390x" then some "for-system-z"
    else none
  else none

def enabledTiers (scheme : RepoScheme) (arch : String) (table : RepoTable) : TierFlags :=
  TierFlags.ofTest fun tier => table.isEnabled (scheme.id arch tier)

end RepoScheme

/-- What the enabled repositories say about the subscription of a host. -/
structure Subscription where
  rhel : String
  rhelMajor : Nat
  rhelMinor : Option Nat
  /-- The id of the base repository of the standard tier. -/
  baseRepoId : String
  /-- The id of the application repository of the standard tier, if there are separate ones. -/
  appstreamRepoId : Option String
  /-- The distribution's own repositories that are enabled. -/
  rhelRepos : List String
  base : TierFlags
  appstream : TierFlags
  lock : Option String
  lockMajor : Option Nat
  lockMinor : Option Nat
  isMajorLocked : Bool
  /-- A minor release is locked only together with a major one. -/
  isMinorLocked : Bool
deriving DecidableEq

namespace Subscription

/-- The subscription of a host of the enterprise distribution; there is none for a release or an
architecture without a naming scheme. -/
def classify? (distribution : Distribution) (table : RepoTable) (pinned : Option PinnedRelease) :
    Option Subscription := do
  guard (distribution.family = .rhel)
  let base ← RepoScheme.base? distribution.major
  let arch ← RepoScheme.archToken? distribution.major distribution.arch
  let appstream := RepoScheme.appstream? distribution.major
  let lockMajor := pinned.bind (·.major)
  let lockMinor := pinned.bind (·.minor)
  some {
    rhel := distribution.release
    rhelMajor := distribution.major
    rhelMinor := distribution.minor
    baseRepoId := base.id arch .standard
    appstreamRepoId := appstream.map (·.id arch .standard)
    rhelRepos := table.rhelRepos
    base := base.enabledTiers arch table
    appstream := match appstream with
      | none => TierFlags.full
      | some scheme => scheme.enabledTiers arch table
    lock := pinned.map (·.set)
    lockMajor
    lockMinor
    isMajorLocked := lockMajor.isSome
    isMinorLocked := lockMajor.isSome && lockMinor.isSome }

end Subscription

end HostSurvey
