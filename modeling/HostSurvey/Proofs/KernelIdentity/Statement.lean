import HostSurvey.Proofs.Text.Cutting
import HostSurvey.Reading.KernelIdentity

/-!
# What a kernel states about itself

The first line holds three words and, after them, words in which a machine name may stand. The
architecture is the first machine name among these, or else what stands after the last point of the
kernel release, if that is a machine name (`TellsArch`). Lines are read as an identity exactly when
they state it (`StatedBy`), and they state none when the first of them has fewer than three words.
-/

namespace HostSurvey.KernelIdentity

open Text

variable {release machine : List Char} {further words : List (List Char)} {lines : List String}

/-! ## Machine names -/

/-- The architecture that a kernel release and the words after it tell, if they tell one. -/
inductive TellsArch (release : List Char) (further : List (List Char)) : Option (List Char) → Prop
  | word {before after : List (List Char)} {machine : List Char}
      (stands : further = before ++ machine :: after) (recognized : machine ∈ machines)
      (first : ∀ word ∈ before, word ∉ machines) : TellsArch release further (some machine)
  | suffix {machine : List Char} (wordless : ∀ word ∈ further, word ∉ machines)
      (ends : AfterLast '.' release machine) (recognized : machine ∈ machines) :
      TellsArch release further (some machine)
  | unknown (wordless : ∀ word ∈ further, word ∉ machines)
      (unended : ∀ machine, AfterLast '.' release machine → machine ∉ machines) :
      TellsArch release further none

theorem machineSuffix?_eq_some_iff :
    machineSuffix? release = some machine ↔
      AfterLast '.' release machine ∧ machine ∈ machines := by
  rw [machineSuffix?, Option.filter_eq_some_iff, getLast?_pieces_eq_some_iff,
    List.contains_iff_mem]

theorem machineSuffix?_eq_none_iff :
    machineSuffix? release = none ↔
      ∀ machine, AfterLast '.' release machine → machine ∉ machines := by
  rw [Option.eq_none_iff_forall_ne_some]
  simp only [ne_eq, machineSuffix?_eq_some_iff, not_and]

theorem find?_machine_eq_none_iff :
    further.find? (machines.contains ·) = none ↔ ∀ word ∈ further, word ∉ machines := by
  rw [List.find?_eq_none]
  simp only [List.contains_iff_mem]

theorem tellsArch_archOf? (release : List Char) (further : List (List Char)) :
    TellsArch release further (archOf? release further) := by
  cases hfind : further.find? (machines.contains ·) with
  | some machine =>
    rw [archOf?, hfind, Option.some_or]
    rcases List.find?_eq_some_iff_append.1 hfind with ⟨recognized, before, after, stands, first⟩
    refine .word stands (List.contains_iff_mem.1 recognized) fun word hword => ?_
    simpa using first word hword
  | none =>
    rw [archOf?, hfind, Option.none_or]
    have wordless := find?_machine_eq_none_iff.1 hfind
    cases hsuffix : machineSuffix? release with
    | some machine =>
      have hends := machineSuffix?_eq_some_iff.1 hsuffix
      exact .suffix wordless hends.1 hends.2
    | none => exact .unknown wordless (machineSuffix?_eq_none_iff.1 hsuffix)

theorem TellsArch.archOf?_eq {arch : Option (List Char)} (h : TellsArch release further arch) :
    archOf? release further = arch := by
  cases h with
  | @word before after machine stands recognized first =>
    have hfind : further.find? (machines.contains ·) = some machine := by
      apply List.find?_eq_some_iff_append.2
      refine ⟨List.contains_iff_mem.2 recognized, before, after, stands, fun word hword => ?_⟩
      simpa using first word hword
    rw [archOf?, hfind, Option.some_or]
  | suffix wordless ends recognized =>
    rw [archOf?, find?_machine_eq_none_iff.2 wordless, Option.none_or]
    exact machineSuffix?_eq_some_iff.2 ⟨ends, recognized⟩
  | unknown wordless unended =>
    rw [archOf?, find?_machine_eq_none_iff.2 wordless, Option.none_or]
    exact machineSuffix?_eq_none_iff.2 unended

/-! ## Lines -/

/-- Lines state the identity that the words of the first one spell out. -/
inductive StatedBy : List String → KernelIdentity → Prop
  | first {line : String} {rest : List String} {name node release : List Char}
      {further : List (List Char)} {arch : Option (List Char)}
      (spells : Words line.toList (name :: node :: release :: further))
      (tells : TellsArch release further arch) :
      StatedBy (line :: rest) ⟨String.ofList name, String.ofList node, String.ofList release,
        arch.map String.ofList⟩

/-- There is no line, or the first one has fewer than three words. -/
inductive Unstated : List String → Prop
  | empty : Unstated []
  | short {line : String} {rest : List String} {words : List (List Char)}
      (spells : Words line.toList words) (short : words.length < 3) : Unstated (line :: rest)

theorem line?_eq_none_iff {line : List Char} : line? line = none ↔ (fields line).length < 3 := by
  rw [line?]
  split
  · next hfields =>
    rw [hfields]
    exact iff_of_false (by simp) (by simp)
  · next hfew =>
    refine iff_of_true rfl ?_
    -- three words would have been taken apart
    match hfields : fields line with
    | [] => decide
    | [_] => simp
    | [_, _] => simp
    | name :: node :: release :: further => exact absurd hfields (hfew name node release further)

theorem line?_eq_some_iff {line : List Char} {identity : KernelIdentity} :
    line? line = some identity ↔ ∃ name node release further,
      fields line = name :: node :: release :: further ∧
      identity = ⟨String.ofList name, String.ofList node, String.ofList release,
        (archOf? release further).map String.ofList⟩ := by
  rw [line?]
  split
  · next name node release further hfields =>
    apply Iff.intro
    · intro h
      exact ⟨name, node, release, further, hfields, (Option.some.inj h).symm⟩
    · intro h
      rcases h with ⟨name', node', release', further', hfields', rfl⟩
      cases hfields.symm.trans hfields'
      rfl
  · next hfew =>
    refine iff_of_false (by simp) ?_
    intro h
    rcases h with ⟨name, node, release, further, hfields, -⟩
    exact hfew name node release further hfields

theorem ofLines?_eq_some_iff {identity : KernelIdentity} :
    ofLines? lines = some identity ↔ StatedBy lines identity := by
  apply Iff.intro
  · intro h
    cases lines with
    | nil => cases h
    | cons line rest =>
      rcases line?_eq_some_iff.1 h with ⟨name, node, release, further, hfields, rfl⟩
      exact .first (words_iff.2 hfields) (tellsArch_archOf? release further)
  · intro h
    cases h with
    | first spells tells =>
      rw [← tells.archOf?_eq]
      exact line?_eq_some_iff.2 ⟨_, _, _, _, words_iff.1 spells, rfl⟩

theorem ofLines?_eq_none_iff : ofLines? lines = none ↔ Unstated lines := by
  apply Iff.intro
  · intro h
    cases lines with
    | nil => exact .empty
    | cons line rest => exact .short (words_iff.2 rfl) (line?_eq_none_iff.1 h)
  · intro h
    cases h with
    | empty => rfl
    | short spells short =>
      apply line?_eq_none_iff.2
      rw [words_iff.1 spells]
      exact short

end HostSurvey.KernelIdentity
