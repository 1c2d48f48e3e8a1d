import ColumnQuery.Proofs.Group.Key
import Mathlib.Data.String.Basic

/-! # Texts in the order of their bytes

UTF-8 keeps the order of texts: the one whose code points come first also comes first by its bytes.
Of two characters the one that is written in fewer bytes has the lesser first byte, and with equally
many bytes these are the digits of the code points to base 64, the highest first.
-/

namespace ColumnQuery.Text

private theorem toUTF8_eq_flatMap (text : String) :
    text.toUTF8.toList = text.toList.flatMap String.utf8EncodeChar := by
  have encoded : text.toByteArray = text.toList.utf8Encode := by
    rw [← String.toByteArray_ofList, String.ofList_toList]
  rw [String.toUTF8_eq_toByteArray, GroupKey.toList_eq_data, encoded, List.utf8Encode,
    List.toList_data_toByteArray]

/-- The bytes of the lesser character are less, whatever follows them. -/
theorem encodeChar_lt {char other : Char} (less : char < other) (rest others : List UInt8) :
    String.utf8EncodeChar char ++ rest < String.utf8EncodeChar other ++ others := by
  have codes : char.val.toNat < other.val.toNat := less
  have bound : other.val.toNat < 0x110000 := by
    have valid := other.valid
    simp only [UInt32.isValidChar, Nat.isValidChar] at valid
    omega
  -- each digit is found by one more division by the base
  have digits (code : Nat) :
      code / 4096 = code / 64 / 64 ∧ code / 262144 = code / 64 / 64 / 64 := by
    omega
  simp only [String.utf8EncodeChar, digits]
  generalize char.val.toNat = code at *
  generalize other.val.toNat = otherCode at *
  -- by the number of bytes of either character
  repeat' split
  all_goals
    simp only [List.cons_append, List.nil_append, List.cons_lt_cons_iff, UInt8.lt_iff_toNat_lt,
      ← UInt8.toNat_inj, UInt8.toNat_ofNat']
    omega

private theorem encodeChar_ne_nil (char : Char) : String.utf8EncodeChar char ≠ [] := by
  apply List.ne_nil_of_length_pos
  rw [String.length_utf8EncodeChar]
  exact char.utf8Size_pos

private theorem flatMap_encodeChar_lt {chars others : List Char} (less : chars < others) :
    chars.flatMap String.utf8EncodeChar < others.flatMap String.utf8EncodeChar := by
  induction chars generalizing others with
  | nil =>
    cases others with
    | nil => exact absurd less (List.lt_irrefl [])
    | cons other others =>
      obtain ⟨byte, bytes, encoded⟩ := List.exists_cons_of_ne_nil (encodeChar_ne_nil other)
      rw [List.flatMap_nil, List.flatMap_cons, encoded]
      exact .nil
  | cons char chars ih =>
    cases others with
    | nil => exact absurd less (List.not_lt_nil _)
    | cons other others =>
      rw [List.flatMap_cons, List.flatMap_cons]
      rcases List.cons_lt_cons_iff.mp less with first | ⟨rfl, later⟩
      · exact encodeChar_lt first _ _
      · exact List.append_left_lt (ih later)

/-- Texts are ordered like their bytes. -/
theorem toUTF8_lt_iff {left right : String} :
    left.toUTF8.toList < right.toUTF8.toList ↔ left < right := by
  have keeps {text other : String} (less : text < other) :
      text.toUTF8.toList < other.toUTF8.toList := by
    rw [toUTF8_eq_flatMap, toUTF8_eq_flatMap]
    exact flatMap_encodeChar_lt (String.lt_iff_toList_lt.mp less)
  constructor
  · intro less
    rcases lt_trichotomy left right with before | rfl | after
    · exact before
    · exact absurd less (List.lt_irrefl _)
    · exact absurd less (List.lt_asymm (keeps after))
  · exact keeps

theorem toUTF8_le_iff {left right : String} :
    left.toUTF8.toList ≤ right.toUTF8.toList ↔ left ≤ right := by
  rw [← List.not_lt, toUTF8_lt_iff, not_lt]

end ColumnQuery.Text
