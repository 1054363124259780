import HostSurvey.Proofs.InstalledMemory.Total
import Mathlib.Algebra.BigOperators.Group.List.Basic

/-!
# Installed memory is exact

The memory of modules is the exact sum of the sizes that count, and there is none when the sum is
zero. It fails for a size out of range and for a sum of `2^64` bytes or more, and for nothing else, so
neither the order of the sizes nor those that do not count matter. A check of every product and every
running total on the way comes to the same.
-/

namespace HostSurvey.InstalledMemory

open Text

/-- The bytes that sizes stand for add up to a sum, which may be of any size. -/
def AddUpTo (sizes : List String) (sum : Nat) : Prop :=
  ∃ bytes, List.Forall₂ StandsFor sizes bytes ∧ bytes.sum = sum

/-- Two results are both errors, both without memory, or the same amount of memory in whole units. -/
inductive SameTotals :
    Except Error (Option InstalledMemory) → Except Error (Option InstalledMemory) → Prop
  | error (a b : Error) : SameTotals (.error a) (.error b)
  | none : SameTotals (.ok none) (.ok none)
  | some {a b : InstalledMemory} (bytes : a.bytes = b.bytes) (kilobytes : a.kilobytes = b.kilobytes)
      (megabytes : a.megabytes = b.megabytes) : SameTotals (.ok (some a)) (.ok (some b))

variable {total : InstalledMemory} {sizes others : List String} {sum n : Nat} {unit : MemoryUnit}

/-! ## Sums -/

theorem AddUpTo.of_perm (h : AddUpTo sizes sum) (perm : sizes.Perm others) :
    AddUpTo others sum := by
  rcases h with ⟨bytes, hbytes, rfl⟩
  rcases List.perm_comp_forall₂ perm.symm hbytes with ⟨bytes', hbytes', hperm⟩
  exact ⟨bytes', hbytes', hperm.sum_eq⟩

theorem exists_total_of_addUpTo (h : AddUpTo sizes sum) (below : sum < 2 ^ 64) :
    ∃ memory, InstalledMemory.total sizes = .ok memory ∧ memory.bytes = sum := by
  rcases h with ⟨bytes, hbytes, rfl⟩
  rcases exists_total_eq_ok_iff.2 ⟨bytes, hbytes, below⟩ with ⟨memory, hmemory⟩
  rcases bytes_of_total_eq_ok hmemory with ⟨bytes', hbytes', hsum⟩
  exact ⟨memory, hmemory, by rw [hsum, forall₂_standsFor_unique hbytes' hbytes]⟩

theorem exists_addUpTo_of_ok {result : Option InstalledMemory}
    (h : ofSizes sizes = .ok result) : ∃ sum, AddUpTo sizes sum ∧ sum < 2 ^ 64 := by
  unfold ofSizes at h
  cases hmemory : InstalledMemory.total sizes with
  | error cause =>
    rw [hmemory] at h
    cases h
  | ok memory =>
    rcases exists_total_eq_ok_iff.1 ⟨memory, hmemory⟩ with ⟨bytes, hbytes, hlt⟩
    exact ⟨bytes.sum, ⟨bytes, hbytes, rfl⟩, hlt⟩

theorem ofSizes_eq_none_of_addUpTo (h : AddUpTo sizes 0) : ofSizes sizes = .ok none := by
  rcases exists_total_of_addUpTo h (by decide) with ⟨memory, hmemory, hbytes⟩
  have scaled := scaled_of_total_eq_ok hmemory
  have hmegabytes : ¬ 0 < memory.megabytes := by
    have hb := scaled.bytes
    have hk := scaled.kilobytes
    omega
  rw [ofSizes, hmemory, Except.map, if_neg hmegabytes]

theorem exists_ofSizes_of_addUpTo (h : AddUpTo sizes sum) (hsum : sum ≠ 0)
    (below : sum < 2 ^ 64) :
    ∃ memory, ofSizes sizes = .ok (some memory) ∧ memory.bytes = sum ∧ memory.Scaled := by
  rcases exists_total_of_addUpTo h below with ⟨memory, hmemory, hbytes⟩
  have scaled := scaled_of_total_eq_ok hmemory
  have hmegabytes : 0 < memory.megabytes := by
    have hb := scaled.bytes
    have hk := scaled.kilobytes
    omega
  refine ⟨memory, ?_, hbytes, scaled⟩
  rw [ofSizes, hmemory, Except.map, if_pos hmegabytes]

-- The three whole totals of a result are told by the sum, so they depend on nothing else.
theorem sameTotals_of_addUpTo_iff (h : ∀ sum, AddUpTo sizes sum ↔ AddUpTo others sum) :
    SameTotals (ofSizes sizes) (ofSizes others) := by
  by_cases hfits : ∃ sum, AddUpTo sizes sum ∧ sum < 2 ^ 64
  · rcases hfits with ⟨sum, hsizes, below⟩
    have hothers := (h sum).1 hsizes
    by_cases hsum : sum = 0
    · subst hsum
      rw [ofSizes_eq_none_of_addUpTo hsizes, ofSizes_eq_none_of_addUpTo hothers]
      exact .none
    · rcases exists_ofSizes_of_addUpTo hsizes hsum below with ⟨a, ha, habytes, hascaled⟩
      rcases exists_ofSizes_of_addUpTo hothers hsum below with ⟨b, hb, hbbytes, hbscaled⟩
      rw [ha, hb]
      have hakilobytes := hascaled.bytes
      have hamegabytes := hascaled.kilobytes
      have hbkilobytes := hbscaled.bytes
      have hbmegabytes := hbscaled.kilobytes
      exact .some (by omega) (by omega) (by omega)
  · cases hsizes : ofSizes sizes with
    | ok result => exact absurd (exists_addUpTo_of_ok hsizes) hfits
    | error a =>
      cases hothers : ofSizes others with
      | ok result =>
        rcases exists_addUpTo_of_ok hothers with ⟨sum, hsum, below⟩
        exact absurd ⟨sum, (h sum).2 hsum, below⟩ hfits
      | error b => exact .error a b

-- A size that does not count may stand anywhere or nowhere.
theorem ofSizes_append_cons_of_uncounted {before after : List String} {size : String}
    (h : ∀ number unit, ¬ Counts size number unit) :
    ofSizes (before ++ size :: after) = ofSizes (before ++ after) := by
  have hskip : ∀ total, addSize total size = .ok total := by
    intro total
    rw [addSize, counted?_eq_none_iff.2 h]
  unfold ofSizes InstalledMemory.total
  rw [List.foldlM_append, List.foldlM_append]
  simp only [List.foldlM_cons, hskip]
  rfl

/-! ## Checks on the way -/

/-- A product or a running total, which has to be below the limit. -/
def checked (n : Nat) : Except Error Nat := if n < longLimit then .ok n else .error .overflow

/-- The addition in small steps, of which the first one that passes the limit breaks off. -/
def addStepwise (total : InstalledMemory) (n : Nat) (unit : MemoryUnit) :
    Except Error InstalledMemory := do
  let megabytes ← checked (n * unit.megabytes)
  let kilobytes ← checked (megabytes * 1024)
  let bytes ← checked (kilobytes * 1024)
  let totalMegabytes ← checked (total.megabytes + megabytes)
  let totalKilobytes ← checked (total.kilobytes + kilobytes)
  let totalBytes ← checked (total.bytes + bytes)
  .ok {
    bytes := totalBytes
    kilobytes := totalKilobytes
    megabytes := totalMegabytes
    gigabytes := total.gigabytes.addMagnitudes (unit.inGigabytes n) }

def addSizeStepwise (total : InstalledMemory) (size : String) : Except Error InstalledMemory :=
  match counted? size with
  | none => .ok total
  | some (number, unit) =>
    match readNumeral longLimit number with
    | .error cause => .error (.badSize size cause)
    | .ok n => total.addStepwise n unit

theorem checked_bind_of_lt {α : Type} {next : Nat → Except Error α} (h : n < longLimit) :
    (checked n >>= next) = next n := by
  rw [checked, if_pos h]
  rfl

theorem checked_bind_eq_overflow {α : Type} {next : Nat → Except Error α}
    (h : n < longLimit → next n = .error .overflow) : (checked n >>= next) = .error .overflow := by
  by_cases hlt : n < longLimit
  · rw [checked_bind_of_lt hlt, h hlt]
  · rw [checked, if_neg hlt]
    rfl

-- The total in bytes is the greatest of the six numbers, so it passes the limit if any of them does.
theorem addStepwise_eq_add (scaled : total.Scaled) :
    total.addStepwise n unit = total.add n unit := by
  have hbytes := scaled.bytes
  have hkilobytes := scaled.kilobytes
  unfold addStepwise add
  generalize n * unit.megabytes = megabytes
  by_cases hlt : total.bytes + megabytes * 1024 * 1024 < longLimit
  · rw [if_pos hlt, checked_bind_of_lt (by omega), checked_bind_of_lt (by omega),
      checked_bind_of_lt (by omega), checked_bind_of_lt (by omega), checked_bind_of_lt (by omega),
      checked_bind_of_lt (by omega)]
  · rw [if_neg hlt]
    refine checked_bind_eq_overflow fun _ => checked_bind_eq_overflow fun _ => ?_
    refine checked_bind_eq_overflow fun _ => checked_bind_eq_overflow fun _ => ?_
    exact checked_bind_eq_overflow fun _ => checked_bind_eq_overflow fun hlt' => absurd hlt' hlt

theorem addSizeStepwise_eq_addSize (scaled : total.Scaled) (size : String) :
    addSizeStepwise total size = addSize total size := by
  unfold addSizeStepwise addSize
  cases counted? size with
  | none => rfl
  | some counted =>
    dsimp only
    cases readNumeral longLimit counted.1 with
    | error cause => rfl
    | ok n => exact addStepwise_eq_add scaled

theorem foldlM_addSizeStepwise (scaled : total.Scaled) (sizes : List String) :
    sizes.foldlM addSizeStepwise total = sizes.foldlM addSize total := by
  induction sizes generalizing total with
  | nil => rfl
  | cons size sizes ih =>
    rw [List.foldlM_cons, List.foldlM_cons, addSizeStepwise_eq_addSize scaled]
    cases hfirst : addSize total size with
    | error cause => rfl
    | ok next => exact ih (scaled.addSize hfirst)

/-- Sizes have an exact sum, or a fault that is there wherever it stands in the list. A check of each
step of the addition finds the same faults, and the same amounts otherwise. -/
theorem ofSizes_exact (sizes : List String) :
    ((∃ cause, ofSizes sizes = .error cause) ↔
      (∃ size ∈ sizes, ∃ number unit,
        Counts size number unit ∧ ∀ n, Numeral number n → 2 ^ 64 ≤ n) ∨
      ∃ sum, AddUpTo sizes sum ∧ 2 ^ 64 ≤ sum) ∧
    (∀ sum, AddUpTo sizes sum → sum < 2 ^ 64 →
      (sum = 0 → ofSizes sizes = .ok none) ∧
      (sum ≠ 0 → ∃ memory, ofSizes sizes = .ok (some memory) ∧ memory.bytes = sum ∧
        memory.kilobytes = sum / 1024 ∧ memory.megabytes = sum / 1024 ^ 2 ∧
        memory.bytes = 1024 * memory.kilobytes ∧ memory.bytes = 1024 ^ 2 * memory.megabytes)) ∧
    (∀ others, sizes.Perm others → SameTotals (ofSizes sizes) (ofSizes others)) ∧
    (∀ before size after, sizes = before ++ size :: after →
      (∀ number unit, ¬ Counts size number unit) → ofSizes sizes = ofSizes (before ++ after)) ∧
    sizes.foldlM addSizeStepwise zero = InstalledMemory.total sizes := by
  refine ⟨?_, fun sum h below => ⟨fun hsum => ?_, fun hsum => ?_⟩, fun others perm => ?_, ?_, ?_⟩
  · rw [exists_ofSizes_eq_error_iff]
    simp [AddUpTo]
  · exact ofSizes_eq_none_of_addUpTo (hsum ▸ h)
  · rcases exists_ofSizes_of_addUpTo h hsum below with ⟨memory, hmemory, hbytes, scaled⟩
    have hkilobytes := scaled.bytes
    have hmegabytes := scaled.kilobytes
    exact ⟨memory, hmemory, hbytes, by omega, by omega, by omega, by omega⟩
  · exact sameTotals_of_addUpTo_iff fun sum => ⟨fun h => h.of_perm perm, fun h => h.of_perm perm.symm⟩
  · intro before size after cut uncounted
    subst cut
    exact ofSizes_append_cons_of_uncounted uncounted
  · exact foldlM_addSizeStepwise ⟨rfl, rfl⟩ sizes

/-- An empty slot between two modules, a sign and another order do not matter. -/
theorem mixed_sizes_add_up :
    AddUpTo ["+4 GB", "No Module Installed", "2048 MB"] 6442450944 ∧
    (∃ memory, ofSizes ["+4 GB", "No Module Installed", "2048 MB"] = .ok (some memory) ∧
      memory.bytes = 6442450944 ∧ memory.megabytes = 6144) ∧
    SameTotals (ofSizes ["+4 GB", "No Module Installed", "2048 MB"])
      (ofSizes ["2048 MB", "No Module Installed", "+4 GB"]) ∧
    ofSizes ["+4 GB", "No Module Installed", "2048 MB"] = ofSizes ["+4 GB", "2048 MB"] := by
  have hfour : StandsFor "+4 GB" (4 * MemoryUnit.gigabyte.bytes) := by
    have counts : Counts "+4 GB" ['+', '4'] .gigabyte := counted?_eq_some_iff.1 (by decide)
    exact .counted counts (readNumeral_eq_ok_iff.1 (by decide)).1 (by decide)
  have htwo : StandsFor "2048 MB" (2048 * MemoryUnit.megabyte.bytes) := by
    have counts : Counts "2048 MB" ['2', '0', '4', '8'] .megabyte :=
      counted?_eq_some_iff.1 (by decide)
    exact .counted counts (readNumeral_eq_ok_iff.1 (by decide)).1 (by decide)
  have hempty : ∀ number unit, ¬ Counts "No Module Installed" number unit :=
    counted?_eq_none_iff.1 (by decide)
  have hsum : AddUpTo ["+4 GB", "No Module Installed", "2048 MB"] 6442450944 :=
    ⟨_, .cons hfour (.cons (.uncounted hempty) (.cons htwo .nil)), by decide⟩
  have sums := ofSizes_exact ["+4 GB", "No Module Installed", "2048 MB"]
  rcases (sums.2.1 _ hsum (by decide)).2 (by decide) with
    ⟨memory, hmemory, hbytes, -, hmegabytes, -, -⟩
  refine ⟨hsum, ⟨memory, hmemory, hbytes, hmegabytes⟩, sums.2.2.1 _ ?_, ?_⟩
  · exact (List.reverse_perm ["+4 GB", "No Module Installed", "2048 MB"]).symm
  · exact sums.2.2.2.1 ["+4 GB"] _ ["2048 MB"] rfl hempty

end HostSurvey.InstalledMemory
