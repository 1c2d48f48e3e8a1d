import ColumnQuery.Group.Key
import ColumnQuery.Proofs.Scalar.Order
import Mathlib.Algebra.Group.Nat.Defs

/-! # Equal keys

Keys whose values are canonical have the same encoding only if they are the same, and they compare
as equal only if they are the same. In the encoding each value ends where its tag says, or, for a
string, at the first byte `0xff`, which is no byte of UTF-8.
-/

namespace ColumnQuery.GroupKey

/-- A tuple with both zeros taken as one value and all NaNs as one. -/
def IsCanonical (values : List Scalar) : Prop := values.map Scalar.canonical = values

theorem canonical_canonical (value : Scalar) : value.canonical.canonical = value.canonical := by
  cases value <;> first
    | rfl
    | exact congrArg Scalar.float64 (Binary64.canonical_canonical _)

theorem isCanonical_map (values : List Scalar) : IsCanonical (values.map Scalar.canonical) := by
  rw [IsCanonical, List.map_map]
  exact List.map_congr_left fun value _ => canonical_canonical value

section Bytes

private theorem toList_loop (bytes : ByteArray) (index : Nat) (seen : List UInt8) :
    ByteArray.toList.loop bytes index seen = seen.reverse ++ bytes.data.toList.drop index := by
  fun_induction ByteArray.toList.loop bytes index seen with
  | case1 index seen before ih =>
    have next : bytes.data.toList.drop index =
        bytes.data[index] :: bytes.data.toList.drop (index + 1) :=
      List.drop_eq_getElem_cons (by simpa using before)
    rw [ih, next]
    simp [ByteArray.get!, before]
  | case2 index seen after =>
    have empty : bytes.data.toList.drop index = [] :=
      List.drop_of_length_le (by simpa using after)
    simp [empty]

theorem toList_eq_data (bytes : ByteArray) : bytes.toList = bytes.data.toList := by
  rw [ByteArray.toList, toList_loop]
  rfl

private theorem ofNat_ne_terminator {n : Nat} (small : n < 255) : UInt8.ofNat n ≠ 0xff := by
  intro same
  have numbers := congrArg UInt8.toNat same
  simp at numbers
  omega

private theorem ne_terminator_of_mem_encodeChar {char : Char} {byte : UInt8}
    (isByte : byte ∈ String.utf8EncodeChar char) : byte ≠ 0xff := by
  simp only [String.utf8EncodeChar] at isByte
  split at isByte
  · obtain rfl := List.mem_singleton.mp isByte
    exact ofNat_ne_terminator (by omega)
  · split at isByte
    · simp only [List.mem_cons, List.not_mem_nil, or_false] at isByte
      rcases isByte with rfl | rfl <;> exact ofNat_ne_terminator (by omega)
    · split at isByte
      · simp only [List.mem_cons, List.not_mem_nil, or_false] at isByte
        rcases isByte with rfl | rfl | rfl <;> exact ofNat_ne_terminator (by omega)
      · simp only [List.mem_cons, List.not_mem_nil, or_false] at isByte
        rcases isByte with rfl | rfl | rfl | rfl <;> exact ofNat_ne_terminator (by omega)

/-- No byte of a string is `0xff`. -/
theorem terminator_not_mem_toUTF8 (text : String) : (0xff : UInt8) ∉ text.toUTF8.toList := by
  intro isByte
  obtain ⟨chars, encoded⟩ := text.isValidUTF8
  rw [String.toUTF8_eq_toByteArray, toList_eq_data, encoded, List.utf8Encode,
    List.toList_data_toByteArray] at isByte
  obtain ⟨char, -, isByte⟩ := List.mem_flatMap.mp isByte
  exact ne_terminator_of_mem_encodeChar isByte rfl

private theorem eq_of_toUTF8_eq {left right : String}
    (same : left.toUTF8.toList = right.toUTF8.toList) : left = right := by
  rw [String.toUTF8_eq_toByteArray, String.toUTF8_eq_toByteArray, toList_eq_data,
    toList_eq_data] at same
  exact String.toByteArray_inj.mp (ByteArray.ext (Array.toList_inj.mp same))

@[simp] theorem length_littleEndian (count n : Nat) : (littleEndian count n).length = count := by
  induction count generalizing n with
  | zero => rfl
  | succ count ih => rw [littleEndian, List.length_cons, ih]

private theorem eq_of_littleEndian_eq {count left right : Nat} (leftBound : left < 256 ^ count)
    (rightBound : right < 256 ^ count)
    (same : littleEndian count left = littleEndian count right) : left = right := by
  induction count generalizing left right with
  | zero => omega
  | succ count ih =>
    obtain ⟨low, high⟩ := List.cons.inj same
    rw [Nat.pow_succ] at leftBound rightBound
    have higher := ih (by omega) (by omega) high
    have lowest := congrArg UInt8.toNat low
    simp at lowest
    omega

end Bytes

private theorem eq_of_littleEndian_append {count left right : Nat} {leftRest rightRest : List UInt8}
    (leftBound : left < 256 ^ count) (rightBound : right < 256 ^ count)
    (same : littleEndian count left ++ leftRest = littleEndian count right ++ rightRest) :
    left = right ∧ leftRest = rightRest := by
  obtain ⟨digits, rests⟩ := List.append_inj same (by simp)
  exact ⟨eq_of_littleEndian_eq leftBound rightBound digits, rests⟩

private theorem eq_of_append_cons_eq {byte : UInt8} {left right leftRest rightRest : List UInt8}
    (leftFree : byte ∉ left) (rightFree : byte ∉ right)
    (same : left ++ byte :: leftRest = right ++ byte :: rightRest) :
    left = right ∧ leftRest = rightRest := by
  rcases List.append_eq_append_iff.mp same with ⟨more, rfl, rests⟩ | ⟨more, rfl, rests⟩
  all_goals
    cases more with
    | nil => simp_all
    | cons first others =>
      obtain ⟨rfl, -⟩ := List.cons.inj rests
      simp at leftFree rightFree

/-- Canonical values whose encodings start two equal texts are the same, and so are the rests. -/
theorem eq_of_encodeValue_eq {left right : Scalar} (leftCanonical : left.canonical = left)
    (rightCanonical : right.canonical = right) {leftRest rightRest : List UInt8}
    (same : encodeValue left ++ 0xff :: leftRest = encodeValue right ++ 0xff :: rightRest) :
    left = right ∧ leftRest = rightRest := by
  -- values of different types differ in the tag
  cases left with
  | null =>
    cases right with
    | null => exact ⟨rfl, (List.cons.inj (List.cons.inj same).2).2⟩
    | _ => exact absurd (List.cons.inj same).1 (by decide)
  | boolean left =>
    cases right with
    | boolean right =>
      obtain ⟨value, rests⟩ := List.cons.inj (List.cons.inj same).2
      refine ⟨?_, (List.cons.inj rests).2⟩
      cases left <;> cases right <;> first
        | rfl
        | exact absurd value (by decide)
    | _ => exact absurd (List.cons.inj same).1 (by decide)
  | int32 left =>
    cases right with
    | int32 right =>
      obtain ⟨number, rests⟩ := eq_of_littleEndian_append left.toUInt32.toNat_lt
        right.toUInt32.toNat_lt (List.cons.inj same).2
      have words := congrArg UInt32.toInt32 (UInt32.toNat_inj.mp number)
      rw [Int32.toInt32_toUInt32, Int32.toInt32_toUInt32] at words
      exact ⟨congrArg Scalar.int32 words, (List.cons.inj rests).2⟩
    | _ => exact absurd (List.cons.inj same).1 (by decide)
  | int64 left =>
    cases right with
    | int64 right =>
      obtain ⟨number, rests⟩ := eq_of_littleEndian_append left.toUInt64.toNat_lt
        right.toUInt64.toNat_lt (List.cons.inj same).2
      have words := congrArg UInt64.toInt64 (UInt64.toNat_inj.mp number)
      rw [Int64.toInt64_toUInt64, Int64.toInt64_toUInt64] at words
      exact ⟨congrArg Scalar.int64 words, (List.cons.inj rests).2⟩
    | _ => exact absurd (List.cons.inj same).1 (by decide)
  | float64 left =>
    cases right with
    | float64 right =>
      obtain ⟨number, rests⟩ := eq_of_littleEndian_append left.canonical.bits.toNat_lt
        right.canonical.bits.toNat_lt (List.cons.inj same).2
      have words := congrArg Binary64.mk (UInt64.toNat_inj.mp number)
      refine ⟨?_, (List.cons.inj rests).2⟩
      rw [← leftCanonical, ← rightCanonical]
      exact congrArg Scalar.float64 words
    | _ => exact absurd (List.cons.inj same).1 (by decide)
  | utf8 left =>
    cases right with
    | utf8 right =>
      have after : (littleEndian 4 left.utf8ByteSize ++ left.toUTF8.toList) ++ 0xff :: leftRest =
          (littleEndian 4 right.utf8ByteSize ++ right.toUTF8.toList) ++ 0xff :: rightRest :=
        (List.cons.inj same).2
      rw [List.append_assoc, List.append_assoc] at after
      -- the length is redundant, because the bytes end at the first terminator
      have bytes := (List.append_inj after (by simp)).2
      obtain ⟨text, rests⟩ := eq_of_append_cons_eq (terminator_not_mem_toUTF8 left)
        (terminator_not_mem_toUTF8 right) bytes
      exact ⟨congrArg Scalar.utf8 (eq_of_toUTF8_eq text), rests⟩
    | _ => exact absurd (List.cons.inj same).1 (by decide)

private theorem isCanonical_cons {value : Scalar} {values : List Scalar} :
    IsCanonical (value :: values) ↔ value.canonical = value ∧ IsCanonical values := by
  simp [IsCanonical]

/-- Different canonical tuples have different encodings. -/
theorem encode_injective {left right : List Scalar} (leftCanonical : IsCanonical left)
    (rightCanonical : IsCanonical right) (same : encode left = encode right) : left = right := by
  have nonempty (value : Scalar) (values : List Scalar) : encode (value :: values) ≠ [] :=
    List.append_ne_nil_of_right_ne_nil _ (List.cons_ne_nil _ _)
  induction left generalizing right with
  | nil =>
    cases right with
    | nil => rfl
    | cons value values => exact absurd same.symm (nonempty value values)
  | cons value values ih =>
    cases right with
    | nil => exact absurd same (nonempty value values)
    | cons other others =>
      obtain ⟨valueCanonical, valuesCanonical⟩ := isCanonical_cons.mp leftCanonical
      obtain ⟨otherCanonical, othersCanonical⟩ := isCanonical_cons.mp rightCanonical
      obtain ⟨rfl, rests⟩ := eq_of_encodeValue_eq valueCanonical otherCanonical same
      rw [ih valuesCanonical othersCanonical rests]

/-- On canonical tuples keys are ordered like the tuples. -/
theorem compare_of_isCanonical {left right : List Scalar} (leftCanonical : IsCanonical left)
    (rightCanonical : IsCanonical right) :
    compare left right = Scalar.compareTuples left right := by
  induction left generalizing right with
  | nil => cases right <;> rfl
  | cons value values ih =>
    cases right with
    | nil => rfl
    | cons other others =>
      obtain ⟨valueCanonical, valuesCanonical⟩ := isCanonical_cons.mp leftCanonical
      obtain ⟨otherCanonical, othersCanonical⟩ := isCanonical_cons.mp rightCanonical
      rw [compare, Scalar.compareTuples, valueCanonical, otherCanonical,
        ih valuesCanonical othersCanonical]

end ColumnQuery.GroupKey
