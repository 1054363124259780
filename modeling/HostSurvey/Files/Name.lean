/-!
# File names

The name of a file is made of bytes, which may be a text in UTF-8 or not. Names are put in the order
of their bytes.
-/

namespace HostSurvey

@[ext]
structure FileName where
  bytes : List UInt8
deriving DecidableEq

namespace FileName

def ofText (text : String) : FileName := ⟨text.toUTF8.data.toList⟩

/-- The text that a name is, if its bytes are in UTF-8. -/
def text? (name : FileName) : Option String := String.fromUTF8? ⟨name.bytes.toArray⟩

def sorted (names : List FileName) : List FileName := names.mergeSort fun a b => a.bytes ≤ b.bytes

theorem text?_eq_some_iff {name : FileName} {text : String} :
    name.text? = some text ↔ name = ofText text := by
  unfold text? String.fromUTF8?
  apply Iff.intro
  · intro h
    split at h
    · cases h
      rfl
    · cases h
  · intro h
    subst h
    exact dif_pos text.isValidUTF8

@[simp] theorem text?_ofText (text : String) : (ofText text).text? = some text :=
  text?_eq_some_iff.2 rfl

@[simp] theorem ofText_inj {a b : String} : ofText a = ofText b ↔ a = b := by
  rw [← text?_eq_some_iff, text?_ofText, Option.some.injEq]

theorem sorted_perm (names : List FileName) : (sorted names).Perm names :=
  List.mergeSort_perm names _

/-- Distinct names ascend strictly once they are in order. -/
theorem sorted_ascending {names : List FileName} (distinct : names.Nodup) :
    (sorted names).Pairwise fun a b => a.bytes < b.bytes := by
  have hordered : (sorted names).Pairwise fun a b => decide (a.bytes ≤ b.bytes) = true := by
    apply List.pairwise_mergeSort
    · intro a b c hab hbc
      exact decide_eq_true (List.le_trans (of_decide_eq_true hab) (of_decide_eq_true hbc))
    · intro a b
      rw [Bool.or_eq_true, decide_eq_true_iff, decide_eq_true_iff]
      exact List.le_total a.bytes b.bytes
  have hdistinct : (sorted names).Nodup := (sorted_perm names).nodup_iff.2 distinct
  refine (hordered.and hdistinct).imp fun {a b} h => ?_
  rw [← List.not_le]
  intro hba
  exact h.2 (FileName.ext (List.le_antisymm (of_decide_eq_true h.1) hba))

end FileName

end HostSurvey
