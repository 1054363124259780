import HostSurvey.Reading.ReleaseStatement

/-!
# Distributions

The distribution of a host is the family that its product belongs to, its release, and the
architecture of the machine.
-/

namespace HostSurvey

/-- Families of distributions. -/
inductive Family
  | rhel
  | centos
  | fedora
  | other
deriving DecidableEq, Inhabited

namespace Family

def name : Family → String
  | rhel => "rhel"
  | centos => "centos"
  | fedora => "fedora"
  | other => "other"

/-- The family of a product, by how it starts in any case of ASCII letters. -/
def ofProduct (product : String) : Family :=
  let lower := product.toList.map Char.toLower
  if "red hat enterprise linux".toList.isPrefixOf lower then rhel
  else if "centos".toList.isPrefixOf lower then centos
  else if "fedora".toList.isPrefixOf lower then fedora
  else other

end Family

/-- The distribution of a host. -/
structure Distribution where
  family : Family
  /-- The release as stated. -/
  release : String
  major : Nat
  minor : Option Nat
  arch : String
deriving DecidableEq

def Distribution.ofStatement (statement : ReleaseStatement) (arch : String) : Distribution where
  family := Family.ofProduct statement.product
  release := statement.version
  major := statement.major
  minor := statement.minor
  arch := arch

end HostSurvey
