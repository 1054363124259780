import HostSurvey.Number.Double
import HostSurvey.Text.Note
import HostSurvey.Text.Numeral

/-!
# Installed memory

The sizes of the memory modules of an inventory are added up. A size counts when it is a number
and the unit `GB` or `MB` with a space between them; other texts, such as those of empty slots, do
not count. Units are steps of 1024, and the total in bytes has to stay below `2^64`. The total in
gigabytes is a double: each size in megabytes enters it in hundredths of a gigabyte.
-/

namespace HostSurvey

open Text Number

/-- The units of sizes that count. -/
inductive MemoryUnit
  | gigabyte
  | megabyte
deriving DecidableEq

namespace MemoryUnit

def megabytes : MemoryUnit → Nat
  | gigabyte => 1024
  | megabyte => 1

def ofSymbol? (cs : List Char) : Option MemoryUnit :=
  if cs = ['G', 'B'] then some gigabyte else if cs = ['M', 'B'] then some megabyte else none

/-- A size in gigabytes; megabytes are rounded to hundredths of a gigabyte, a half going up. -/
def inGigabytes (n : Nat) : MemoryUnit → Double
  | gigabyte => Double.ofRatio n 1
  | megabyte => Double.ofRatio (roundUp (n * 100) 1024) 100

end MemoryUnit

/-- The memory installed in a host, in four units. -/
structure InstalledMemory where
  bytes : Nat
  kilobytes : Nat
  megabytes : Nat
  gigabytes : Double
deriving DecidableEq

namespace InstalledMemory

/-- Why sizes cannot be added up. -/
inductive Error
  /-- A size that counts has no number below the limit. -/
  | badSize (size : String) (cause : NumeralError)
  /-- The total is not below the limit. -/
  | overflow
deriving DecidableEq

def Error.message : Error → String
  | .badSize size cause => withNote cause.message s!"invalid memory module size '{size}'"
  | .overflow => "memory size overflow"

def zero : InstalledMemory := ⟨0, 0, 0, Double.zero⟩

/-- The number and the unit of a size that counts. -/
def counted? (size : String) : Option (List Char × MemoryUnit) :=
  (splitAtFirst? ' ' (trim size.toList)).bind fun (number, symbol) =>
    (MemoryUnit.ofSymbol? (trim symbol)).map fun unit => (number, unit)

def add (total : InstalledMemory) (n : Nat) (unit : MemoryUnit) : Except Error InstalledMemory :=
  let megabytes := n * unit.megabytes
  if total.bytes + megabytes * 1024 * 1024 < longLimit then
    .ok {
      bytes := total.bytes + megabytes * 1024 * 1024
      kilobytes := total.kilobytes + megabytes * 1024
      megabytes := total.megabytes + megabytes
      gigabytes := total.gigabytes.addMagnitudes (unit.inGigabytes n) }
  else .error .overflow

def addSize (total : InstalledMemory) (size : String) : Except Error InstalledMemory :=
  match counted? size with
  | none => .ok total
  | some (number, unit) =>
    match readNumeral longLimit number with
    | .error cause => .error (.badSize size cause)
    | .ok n => total.add n unit

def total (sizes : List String) : Except Error InstalledMemory := sizes.foldlM addSize zero

/-- The memory of modules with the given sizes; there is none when the total is zero. -/
def ofSizes (sizes : List String) : Except Error (Option InstalledMemory) :=
  (total sizes).map fun memory => if 0 < memory.megabytes then some memory else none

end InstalledMemory

end HostSurvey
