import HostSurvey.Text.Pieces

/-!
# Kernel identities

A kernel identifies itself by its name, the name of its node, its release, and further fields, some
of which are left out where they are unknown. The architecture is the first machine name among the
further fields, or else the machine name at the end of the release.
-/

namespace HostSurvey

open Text

/-- What the running kernel says about itself. -/
structure KernelIdentity where
  kernelName : String
  nodeName : String
  kernelRelease : String
  arch : Option String
deriving DecidableEq

namespace KernelIdentity

/-- The machine names that are recognized as architectures. -/
def machines : List (List Char) :=
  ["x86_64", "i386", "i686", "aarch64", "ppc64", "ppc64le", "s390x", "armv7l"].map String.toList

/-- The machine name after the last point of a kernel release. -/
def machineSuffix? (release : List Char) : Option (List Char) :=
  ((pieces (· == '.') release).getLast?).filter (machines.contains ·)

/-- The architecture, given the kernel release and the fields after it. -/
def archOf? (release : List Char) (further : List (List Char)) : Option (List Char) :=
  (further.find? (machines.contains ·)).or (machineSuffix? release)

/-- The identity on a line, if it has three fields. -/
def line? (line : List Char) : Option KernelIdentity :=
  match fields line with
  | name :: node :: release :: further =>
    some {
      kernelName := String.ofList name
      nodeName := String.ofList node
      kernelRelease := String.ofList release
      arch := (archOf? release further).map String.ofList }
  | _ => none

def ofLines? (lines : List String) : Option KernelIdentity :=
  lines.head?.bind fun line => line? line.toList

end KernelIdentity

end HostSurvey
