import HostSurvey.Derived.InstalledMemory
import Mathlib.Algebra.Group.Nat.Defs
import Mathlib.Algebra.GroupWithZero.Nat
import Mathlib.Data.List.Forall2

/-!
# When sizes add up

The sizes of memory modules add up to a total exactly when every size that counts has a numeral
below the limit, and the bytes that they stand for, as a sum of natural numbers, stay below the
limit too. Nothing depends on where in the list the total would pass the limit.
-/

namespace HostSurvey

open Text

namespace MemoryUnit

def symbol : MemoryUnit → List Char
  | gigabyte => "GB".toList
  | megabyte => "MB".toList

def bytes : MemoryUnit → Nat
  | gigabyte => 2 ^ 30
  | megabyte => 2 ^ 20

theorem ofSymbol?_eq_some_iff {cs : List Char} {unit : MemoryUnit} :
    ofSymbol? cs = some unit ↔ cs = unit.symbol := by
  unfold ofSymbol?
  apply Iff.intro
  · intro h
    split at h
    · next hcs => cases h; exact hcs
    · split at h
      · next hcs => cases h; exact hcs
      · cases h
  · intro h
    subst h
    cases unit <;> decide

theorem megabytes_mul (n : Nat) (unit : MemoryUnit) :
    n * unit.megabytes * 1024 * 1024 = n * unit.bytes := by
  cases unit with
  | gigabyte => simp only [megabytes, bytes]; omega
  | megabyte => simp only [megabytes, bytes]; omega

end MemoryUnit

namespace InstalledMemory

/-! ## What sizes stand for -/

/-- A size counts when it is a number and a unit with a space between them. -/
def Counts (size : String) (number : List Char) (unit : MemoryUnit) : Prop :=
  ∃ symbol, trim size.toList = number ++ ' ' :: symbol ∧ ' ' ∉ number ∧ trim symbol = unit.symbol

/-- The bytes that a size stands for, which are none when it does not count. A size that counts
stands for nothing when its number is no numeral below the limit. -/
inductive StandsFor : String → Nat → Prop
  | counted {size : String} {number : List Char} {unit : MemoryUnit} {n : Nat}
      (counts : Counts size number unit) (numeral : Numeral number n) (below : n < 2 ^ 64) :
      StandsFor size (n * unit.bytes)
  | uncounted {size : String} (not : ∀ number unit, ¬ Counts size number unit) : StandsFor size 0

theorem counted?_eq_some_iff {size : String} {number : List Char} {unit : MemoryUnit} :
    counted? size = some (number, unit) ↔ Counts size number unit := by
  unfold counted?
  rw [Option.bind_eq_some_iff]
  apply Iff.intro
  · intro h
    rcases h with ⟨⟨before, symbol⟩, hsplit, hunit⟩
    rcases Option.map_eq_some_iff.1 hunit with ⟨other, hsymbol, heq⟩
    cases heq
    rcases splitAtFirst?_eq_some_iff.1 hsplit with ⟨hsize, hspace⟩
    exact ⟨symbol, hsize, hspace, MemoryUnit.ofSymbol?_eq_some_iff.1 hsymbol⟩
  · intro h
    rcases h with ⟨symbol, hsize, hspace, hunit⟩
    refine ⟨(number, symbol), splitAtFirst?_eq_some_iff.2 ⟨hsize, hspace⟩, ?_⟩
    exact Option.map_eq_some_iff.2 ⟨unit, MemoryUnit.ofSymbol?_eq_some_iff.2 hunit, rfl⟩

theorem counted?_eq_none_iff {size : String} :
    counted? size = none ↔ ∀ number unit, ¬ Counts size number unit := by
  rw [Option.eq_none_iff_forall_ne_some, Prod.forall]
  exact forall₂_congr fun number unit => not_congr counted?_eq_some_iff

theorem readNumeral_eq_ok_iff {number : List Char} {n : Nat} :
    readNumeral longLimit number = .ok n ↔ Numeral number n ∧ n < 2 ^ 64 :=
  Text.readNumeral_eq_ok_iff (by decide)

theorem StandsFor.unique {size : String} {a b : Nat} (ha : StandsFor size a)
    (hb : StandsFor size b) : a = b := by
  cases ha with
  | counted counts numeral below =>
    cases hb with
    | uncounted not => exact absurd counts (not _ _)
    | counted counts' numeral' below' =>
      have hsame := (counted?_eq_some_iff.2 counts).symm.trans (counted?_eq_some_iff.2 counts')
      cases hsame
      have hread := (readNumeral_eq_ok_iff.2 ⟨numeral, below⟩).symm.trans
        (readNumeral_eq_ok_iff.2 ⟨numeral', below'⟩)
      cases hread
      rfl
  | uncounted not =>
    cases hb with
    | uncounted _ => rfl
    | counted counts _ _ => exact absurd counts (not _ _)

-- A size stands for nothing when it counts and its number is out of range.
theorem not_exists_standsFor_iff {size : String} :
    (¬ ∃ bytes, StandsFor size bytes) ↔
      ∃ number unit, Counts size number unit ∧ ∀ n, Numeral number n → 2 ^ 64 ≤ n := by
  apply Iff.intro
  · intro h
    by_cases hcounts : ∃ number unit, Counts size number unit
    · rcases hcounts with ⟨number, unit, counts⟩
      refine ⟨number, unit, counts, fun n numeral => ?_⟩
      by_contra hlt
      exact h ⟨_, .counted counts numeral (Nat.lt_of_not_le hlt)⟩
    · exact absurd ⟨0, .uncounted fun number unit counts => hcounts ⟨number, unit, counts⟩⟩ h
  · intro hcause hstands
    rcases hcause with ⟨number, unit, counts, large⟩
    rcases hstands with ⟨bytes, hbytes⟩
    cases hbytes with
    | uncounted not => exact not number unit counts
    | counted counts' numeral below =>
      have hsame := (counted?_eq_some_iff.2 counts).symm.trans (counted?_eq_some_iff.2 counts')
      cases hsame
      exact absurd below (Nat.not_lt.2 (large _ numeral))

/-! ## Adding sizes -/

variable {total memory : InstalledMemory} {size : String} {sizes : List String} {bytes n : Nat}
  {unit : MemoryUnit}

theorem bytes_of_add_eq_ok (h : total.add n unit = .ok memory) :
    memory.bytes = total.bytes + n * unit.bytes ∧ memory.bytes < 2 ^ 64 := by
  simp only [add, MemoryUnit.megabytes_mul] at h
  split at h
  · next hlt =>
    cases h
    exact ⟨rfl, hlt⟩
  · cases h

theorem exists_add_eq_ok (h : total.bytes + n * unit.bytes < 2 ^ 64) :
    ∃ memory, total.add n unit = .ok memory := by
  simp only [add, MemoryUnit.megabytes_mul]
  exact ⟨_, if_pos h⟩

theorem bytes_of_addSize_eq_ok (ht : total.bytes < 2 ^ 64) (h : addSize total size = .ok memory) :
    ∃ bytes, StandsFor size bytes ∧ memory.bytes = total.bytes + bytes ∧ memory.bytes < 2 ^ 64 := by
  unfold addSize at h
  split at h
  · next hnone =>
    cases h
    exact ⟨0, .uncounted (counted?_eq_none_iff.1 hnone), rfl, ht⟩
  · next number unit hsome =>
    split at h
    · cases h
    · next n hread =>
      rcases readNumeral_eq_ok_iff.1 hread with ⟨numeral, below⟩
      exact ⟨_, .counted (counted?_eq_some_iff.1 hsome) numeral below, bytes_of_add_eq_ok h⟩

theorem exists_addSize_eq_ok (hs : StandsFor size bytes) (h : total.bytes + bytes < 2 ^ 64) :
    ∃ memory, addSize total size = .ok memory := by
  unfold addSize
  cases hs with
  | counted counts numeral below =>
    simp only [counted?_eq_some_iff.2 counts, readNumeral_eq_ok_iff.2 ⟨numeral, below⟩]
    exact exists_add_eq_ok h
  | uncounted not =>
    simp only [counted?_eq_none_iff.2 not]
    exact ⟨total, rfl⟩

theorem bytes_of_foldlM_addSize_eq_ok (ht : total.bytes < 2 ^ 64)
    (h : sizes.foldlM addSize total = .ok memory) :
    ∃ bytes, List.Forall₂ StandsFor sizes bytes ∧ memory.bytes = total.bytes + bytes.sum ∧
      memory.bytes < 2 ^ 64 := by
  induction sizes generalizing total with
  | nil =>
    cases h
    exact ⟨[], .nil, rfl, ht⟩
  | cons size sizes ih =>
    rw [List.foldlM_cons] at h
    cases hfirst : addSize total size with
    | error cause => rw [hfirst] at h; cases h
    | ok next =>
      rw [hfirst] at h
      rcases bytes_of_addSize_eq_ok ht hfirst with ⟨first, hstands, hnext, hlt⟩
      rcases ih hlt h with ⟨rest, hrest, hmemory, hbelow⟩
      refine ⟨first :: rest, .cons hstands hrest, ?_, hbelow⟩
      rw [hmemory, hnext, List.sum_cons, Nat.add_assoc]

theorem exists_foldlM_addSize_eq_ok {bytes : List Nat} (hs : List.Forall₂ StandsFor sizes bytes)
    (h : total.bytes + bytes.sum < 2 ^ 64) : ∃ memory, sizes.foldlM addSize total = .ok memory := by
  induction hs generalizing total with
  | nil => exact ⟨total, rfl⟩
  | @cons size first sizes rest hstands hrest ih =>
    rw [List.sum_cons] at h
    have hlt : total.bytes + first < 2 ^ 64 := by omega
    rcases exists_addSize_eq_ok hstands hlt with ⟨next, hfirst⟩
    have hnext : next.bytes = total.bytes + first := by
      rcases bytes_of_addSize_eq_ok (by omega) hfirst with ⟨other, hother, hbytes, -⟩
      rw [hbytes, hstands.unique hother]
    rw [List.foldlM_cons, hfirst]
    exact ih (by omega)

theorem exists_forall₂_standsFor_iff :
    (∃ bytes, List.Forall₂ StandsFor sizes bytes) ↔
      ∀ size ∈ sizes, ∃ bytes, StandsFor size bytes := by
  induction sizes with
  | nil => simp
  | cons size sizes ih =>
    rw [List.forall_mem_cons, ← ih]
    apply Iff.intro
    · intro h
      rcases h with ⟨bytes, h⟩
      rcases List.forall₂_cons_left_iff.1 h with ⟨first, rest, hfirst, hrest, -⟩
      exact ⟨⟨first, hfirst⟩, rest, hrest⟩
    · intro h
      rcases h with ⟨⟨first, hfirst⟩, rest, hrest⟩
      exact ⟨first :: rest, .cons hfirst hrest⟩

theorem exists_total_eq_ok_iff :
    (∃ memory, InstalledMemory.total sizes = .ok memory) ↔
      ∃ bytes, List.Forall₂ StandsFor sizes bytes ∧ bytes.sum < 2 ^ 64 := by
  have hzero : zero.bytes = 0 := rfl
  apply Iff.intro
  · intro h
    rcases h with ⟨memory, h⟩
    rcases bytes_of_foldlM_addSize_eq_ok (by rw [hzero]; decide) h with ⟨bytes, hbytes, hsum, hlt⟩
    exact ⟨bytes, hbytes, by omega⟩
  · intro h
    rcases h with ⟨bytes, hbytes, hlt⟩
    exact exists_foldlM_addSize_eq_ok hbytes (by omega)

theorem forall₂_standsFor_unique {bytes others : List Nat}
    (h : List.Forall₂ StandsFor sizes bytes) (h' : List.Forall₂ StandsFor sizes others) :
    bytes = others := by
  have hunique : Relator.RightUnique StandsFor := fun _ _ _ ha hb => ha.unique hb
  exact List.right_unique_forall₂' hunique h h'

-- Neither kind of fault depends on the order of the sizes, although the first one met is reported.
theorem exists_ofSizes_eq_error_iff :
    (∃ cause, ofSizes sizes = .error cause) ↔
      (∃ size ∈ sizes, ∃ number unit,
        Counts size number unit ∧ ∀ n, Numeral number n → 2 ^ 64 ≤ n) ∨
      ∃ bytes, List.Forall₂ StandsFor sizes bytes ∧ 2 ^ 64 ≤ bytes.sum := by
  have herror : (∃ cause, ofSizes sizes = .error cause) ↔
      ¬ ∃ memory, InstalledMemory.total sizes = .ok memory := by
    rw [ofSizes]
    cases InstalledMemory.total sizes with
    | error cause => simp [Except.map]
    | ok memory => simp [Except.map]
  rw [herror, exists_total_eq_ok_iff]
  simp only [← not_exists_standsFor_iff]
  apply Iff.intro
  · intro h
    by_cases hall : ∀ size ∈ sizes, ∃ bytes, StandsFor size bytes
    · rcases exists_forall₂_standsFor_iff.2 hall with ⟨bytes, hbytes⟩
      exact .inr ⟨bytes, hbytes, Nat.le_of_not_lt fun hlt => h ⟨bytes, hbytes, hlt⟩⟩
    · rw [not_forall₂] at hall
      rcases hall with ⟨size, hmem, hnone⟩
      exact .inl ⟨size, hmem, hnone⟩
  · intro hcause hbelow
    rcases hbelow with ⟨others, hothers, hlt⟩
    rcases hcause with ⟨size, hmem, hnone⟩ | ⟨bytes, hbytes, hlarge⟩
    · exact hnone (exists_forall₂_standsFor_iff.1 ⟨others, hothers⟩ size hmem)
    · rw [forall₂_standsFor_unique hbytes hothers] at hlarge
      omega

/-! ## Sizes in two lists -/

theorem bytes_of_total_eq_ok (h : InstalledMemory.total sizes = .ok memory) :
    ∃ bytes, List.Forall₂ StandsFor sizes bytes ∧ memory.bytes = bytes.sum := by
  have hzero : zero.bytes < 2 ^ 64 := by decide
  rcases bytes_of_foldlM_addSize_eq_ok hzero h with ⟨bytes, hbytes, hsum, -⟩
  rw [show zero.bytes = 0 from rfl, Nat.zero_add] at hsum
  exact ⟨bytes, hbytes, hsum⟩

variable {more : List String} {first second : InstalledMemory}

-- The totals of two lists make up the total of both lists, as long as it stays below the limit.
theorem exists_total_append_eq_ok (hfirst : InstalledMemory.total sizes = .ok first)
    (hsecond : InstalledMemory.total more = .ok second)
    (h : first.bytes + second.bytes < 2 ^ 64) :
    ∃ memory, InstalledMemory.total (sizes ++ more) = .ok memory := by
  rcases bytes_of_total_eq_ok hsecond with ⟨bytes, hbytes, hsum⟩
  rw [hsum] at h
  rcases exists_foldlM_addSize_eq_ok hbytes h with ⟨memory, hmemory⟩
  refine ⟨memory, ?_⟩
  change (sizes ++ more).foldlM addSize zero = .ok memory
  change sizes.foldlM addSize zero = .ok first at hfirst
  rw [List.foldlM_append, hfirst]
  exact hmemory

theorem total_append_eq_ok (h : InstalledMemory.total (sizes ++ more) = .ok memory) :
    ∃ first second, InstalledMemory.total sizes = .ok first ∧
      InstalledMemory.total more = .ok second ∧ memory.bytes = first.bytes + second.bytes ∧
      memory.bytes < 2 ^ 64 := by
  change (sizes ++ more).foldlM addSize zero = .ok memory at h
  rw [List.foldlM_append] at h
  cases hfirst : sizes.foldlM addSize zero with
  | error cause => rw [hfirst] at h; cases h
  | ok first =>
    rw [hfirst] at h
    have hzero : zero.bytes < 2 ^ 64 := by decide
    rcases bytes_of_foldlM_addSize_eq_ok hzero hfirst with ⟨-, -, -, hbelow⟩
    rcases bytes_of_foldlM_addSize_eq_ok hbelow h with ⟨bytes, hbytes, hmemory, hlt⟩
    -- the second list has a total of its own, which is what it adds to the first one
    have hsecond := exists_total_eq_ok_iff.2 ⟨bytes, hbytes, by omega⟩
    rcases hsecond with ⟨second, hsecond⟩
    rcases bytes_of_total_eq_ok hsecond with ⟨others, hothers, hsum⟩
    rw [forall₂_standsFor_unique hothers hbytes] at hsum
    exact ⟨first, second, hfirst, hsecond, by omega, hlt⟩

/-! ## Units of a total -/

/-- The three whole totals are the same amount in units that are steps of 1024. -/
structure Scaled (memory : InstalledMemory) : Prop where
  bytes : memory.bytes = 1024 * memory.kilobytes
  kilobytes : memory.kilobytes = 1024 * memory.megabytes

theorem Scaled.addSize (ht : total.Scaled) (h : addSize total size = .ok memory) :
    memory.Scaled := by
  have hbytes := ht.bytes
  have hkilobytes := ht.kilobytes
  unfold InstalledMemory.addSize at h
  split at h
  · cases h
    exact ht
  · split at h
    · cases h
    · rw [add] at h
      split at h
      · cases h
        apply Scaled.mk
        · show total.bytes + _ = 1024 * (total.kilobytes + _)
          omega
        · show total.kilobytes + _ = 1024 * (total.megabytes + _)
          omega
      · cases h

theorem Scaled.foldlM_addSize (ht : total.Scaled)
    (h : sizes.foldlM InstalledMemory.addSize total = .ok memory) : memory.Scaled := by
  induction sizes generalizing total with
  | nil =>
    cases h
    exact ht
  | cons size sizes ih =>
    rw [List.foldlM_cons] at h
    cases hfirst : InstalledMemory.addSize total size with
    | error cause => rw [hfirst] at h; cases h
    | ok next =>
      rw [hfirst] at h
      exact ih (ht.addSize hfirst) h

theorem scaled_of_total_eq_ok (h : InstalledMemory.total sizes = .ok memory) : memory.Scaled :=
  Scaled.foldlM_addSize ⟨rfl, rfl⟩ h

end InstalledMemory

end HostSurvey
