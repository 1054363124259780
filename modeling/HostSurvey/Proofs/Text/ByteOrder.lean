import Mathlib.Data.Char
import Mathlib.Data.List.Lex

/-!
# Texts in the order of their bytes

Texts are compared by the code points of their characters. The encoding in UTF-8 keeps that order:
of two characters the lesser one has the lesser bytes, whatever follows them.
-/

namespace HostSurvey.Text

/-- The bytes of a text in UTF-8. -/
def bytes (text : String) : List UInt8 := text.toUTF8.data.toList

theorem bytes_eq_flatMap (text : String) :
    bytes text = text.toList.flatMap String.utf8EncodeChar := by
  have hencoded := text.utf8Encode_toList
  show text.toByteArray.data.toList = _
  rw [← hencoded, List.utf8Encode, List.toList_data_toByteArray]

-- The four lengths of encodings have their own ranges of first bytes, in the order of the lengths.
-- Within one length the bytes are the digits of the code point.
theorem utf8EncodeChar_append_lt {c d : Char} (h : c < d) (after after' : List UInt8) :
    String.utf8EncodeChar c ++ after < String.utf8EncodeChar d ++ after' := by
  have hlt : c.val.toNat < d.val.toNat := h
  have hlimit : d.val.toNat < 0x110000 := by
    have hvalid : d.val.toNat < 0xd800 ∨ _ := d.valid
    omega
  unfold String.utf8EncodeChar
  dsimp only
  generalize c.val.toNat = v at hlt
  generalize d.val.toNat = w at hlt hlimit
  split_ifs <;>
    simp (disch := omega) only [List.cons_append, List.nil_append, List.cons_lt_cons_iff,
      UInt8.lt_iff_toNat_lt, ← UInt8.toNat_inj, UInt8.toNat_ofNat', Nat.mod_eq_of_lt] <;>
    omega

theorem flatMap_utf8EncodeChar_lt {cs ds : List Char} (h : cs < ds) :
    cs.flatMap String.utf8EncodeChar < ds.flatMap String.utf8EncodeChar := by
  induction h with
  | @nil d ds =>
    rw [List.flatMap_nil, List.flatMap_cons]
    cases hencoded : String.utf8EncodeChar d with
    | nil => exact absurd hencoded String.utf8EncodeChar_ne_nil
    | cons byte bytes => exact .nil
  | rel hlt => exact utf8EncodeChar_append_lt hlt _ _
  | cons _ ih => exact List.append_left_lt ih

/-- The order of texts is the order of their bytes. -/
theorem lt_iff_bytes_lt {a b : String} : a < b ↔ bytes a < bytes b := by
  rw [String.lt_iff, bytes_eq_flatMap, bytes_eq_flatMap]
  apply Iff.intro
  · exact flatMap_utf8EncodeChar_lt
  · intro h
    rcases lt_trichotomy a.toList b.toList with hlt | heq | hgt
    · exact hlt
    · rw [heq] at h
      exact absurd h (List.lt_irrefl _)
    · exact absurd h (List.lt_asymm (flatMap_utf8EncodeChar_lt hgt))

theorem le_iff_bytes_le {a b : String} : a ≤ b ↔ bytes a ≤ bytes b := by
  rw [← String.not_lt, ← List.not_lt, lt_iff_bytes_lt]

end HostSurvey.Text
