import ColumnQuery.Group.Table
import ColumnQuery.Plan.Meaning
import ColumnQuery.Proofs.Group.Key

/-! # The order of groups

A table keeps each key once, in the order of first occurrence or ascending. Changing the group of a
key changes the one entry of this key, or opens an entry where the order wants it.
-/

namespace ColumnQuery

open GroupKey (IsCanonical)

namespace GroupStrategy

/-- Some keys, each once, in the order of a strategy. -/
def arrange (strategy : GroupStrategy) (keys : List Row) : List Row :=
  match strategy with
  | hash => keys.eraseDups
  | ordered =>
    keys.eraseDups.mergeSort fun left right => (Scalar.compareTuples left right).isLE

/-- A key may stand before another. -/
def Precedes (strategy : GroupStrategy) (left right : Row) : Prop :=
  match strategy with
  | hash => left ≠ right
  | ordered => Scalar.compareTuples left right = .lt

/-- Each key occurs once, and in the order of a strategy. -/
def Arranged (strategy : GroupStrategy) (keys : List Row) : Prop :=
  keys.Pairwise strategy.Precedes

theorem ne_of_precedes {strategy : GroupStrategy} {left right : Row}
    (precedes : strategy.Precedes left right) : left ≠ right := by
  cases strategy with
  | hash => exact precedes
  | ordered =>
    rintro rfl
    have self : Scalar.compareTuples left left = .eq := Std.ReflCmp.compare_self
    rw [Precedes, self] at precedes
    cases precedes

theorem nodup_of_arranged {strategy : GroupStrategy} {keys : List Row}
    (arranged : strategy.Arranged keys) : keys.Nodup :=
  arranged.imp ne_of_precedes

@[simp] theorem mem_arrange {strategy : GroupStrategy} {keys : List Row} {key : Row} :
    key ∈ strategy.arrange keys ↔ key ∈ keys := by
  cases strategy <;> simp only [arrange, List.mem_mergeSort, List.mem_eraseDups]

private theorem nodup_eraseDups (keys : List Row) : keys.eraseDups.Nodup := by
  induction count : keys.length using Nat.strongRecOn generalizing keys with
  | ind count ih =>
    cases keys with
    | nil => exact List.nodup_nil
    | cons key keys =>
      rw [List.eraseDups_cons, List.nodup_cons]
      have shorter := List.length_filter_le (fun other => !other == key) keys
      exact ⟨by simp, ih _ (by rw [← count, List.length_cons]; omega) _ rfl⟩

theorem arranged_arrange (strategy : GroupStrategy) (keys : List Row) :
    strategy.Arranged (strategy.arrange keys) := by
  cases strategy with
  | hash => exact nodup_eraseDups keys
  | ordered =>
    have total (left right : Row) :
        (Scalar.compareTuples left right).isLE || (Scalar.compareTuples right left).isLE := by
      have swapped : Scalar.compareTuples right left = (Scalar.compareTuples left right).swap :=
        Std.OrientedCmp.eq_swap
      rw [swapped]
      cases Scalar.compareTuples left right <;> rfl
    have sorted := List.pairwise_mergeSort (fun _ _ _ => Std.TransCmp.isLE_trans) total
      keys.eraseDups
    have once := (List.mergeSort_perm keys.eraseDups
      fun left right => (Scalar.compareTuples left right).isLE).nodup_iff.mpr (nodup_eraseDups keys)
    refine (sorted.and once).imp fun {left right} ⟨le, differ⟩ => ?_
    rcases Ordering.isLE_iff_eq_lt_or_eq_eq.mp le with lt | eq
    · exact lt
    · exact absurd (Std.LawfulEqCmp.eq_of_compare eq) differ

theorem eq_of_ascending {left right : List Row} (leftSorted : ordered.Arranged left)
    (rightSorted : ordered.Arranged right) (same : ∀ key, key ∈ left ↔ key ∈ right) :
    left = right := by
  refine List.Perm.eq_of_pairwise (fun first second _ _ less greater => ?_) leftSorted rightSorted
    ((List.perm_ext_iff_of_nodup (nodup_of_arranged leftSorted)
      (nodup_of_arranged rightSorted)).mpr same)
  have self : ordered.Precedes first first := Std.TransCmp.lt_trans less greater
  exact absurd rfl (ne_of_precedes self)

theorem arrange_known {strategy : GroupStrategy} {keys : List Row} {key : Row}
    (known : key ∈ keys) : strategy.arrange (keys ++ [key]) = strategy.arrange keys := by
  have same : (keys ++ [key]).eraseDups = keys.eraseDups := by
    rw [List.eraseDups_append]
    simp [List.removeAll, known]
  cases strategy <;> simp only [arrange, same]

/-- A new key comes last, or where it keeps the keys ascending. -/
theorem arrange_new {strategy : GroupStrategy} {keys before after : List Row} {key : Row}
    (new : key ∉ keys) (whole : strategy.arrange keys = before ++ after)
    (arranged : strategy.Arranged (before ++ key :: after))
    (last : strategy = .hash → after = []) :
    strategy.arrange (keys ++ [key]) = before ++ key :: after := by
  cases strategy with
  | hash =>
    obtain rfl := last rfl
    rw [List.append_nil] at whole
    rw [← whole, arrange, List.eraseDups_append]
    simp [List.removeAll, new, arrange, List.eraseDups_cons]
  | ordered =>
    apply eq_of_ascending (arranged_arrange .ordered _) arranged
    intro other
    have members : other ∈ keys ↔ other ∈ before ++ after := by rw [← whole, mem_arrange]
    simp only [mem_arrange, List.mem_append, members, List.mem_cons, List.not_mem_nil, or_false]
    rw [or_assoc, or_comm (b := other = key)]

theorem arrange_nil (strategy : GroupStrategy) : strategy.arrange [] = [] := by
  cases strategy <;> simp only [arrange, List.eraseDups_nil, List.mergeSort_nil]

/-- Keys that are all the same make one group. -/
theorem arrange_same {strategy : GroupStrategy} {keys : List Row} {key : Row} (nonempty : keys ≠ [])
    (same : ∀ other ∈ keys, other = key) : strategy.arrange keys = [key] := by
  have copies : strategy.arrange keys = List.replicate (strategy.arrange keys).length key :=
    List.eq_replicate_of_mem fun other isMember => same other (mem_arrange.mp isMember)
  have once := nodup_of_arranged (strategy.arranged_arrange keys)
  rw [copies, List.nodup_replicate] at once
  have some : 0 < (strategy.arrange keys).length := by
    obtain ⟨other, isMember⟩ := List.exists_mem_of_ne_nil keys nonempty
    exact List.length_pos_of_mem (mem_arrange.mpr isMember)
  have one : (strategy.arrange keys).length = 1 := by omega
  rw [copies, one]
  rfl

/-- The keys of the groups that a strategy makes of some keys, in its order. Without group
expressions there is one empty key, even if there are no rows. -/
def groupKeys (strategy : GroupStrategy) (count : Nat) (keys : List Row) : List Row :=
  if count = 0 then [[]] else strategy.arrange keys

/-- The strategy for a number of group expressions. -/
def ofCount (count : Nat) : GroupStrategy := if 1 < count then ordered else hash

/-- The groups that a plan means are those of the strategy that it runs with. -/
theorem groupOrder_perm {order : List Row → List Row} (isPerm : ∀ keys, (order keys).Perm keys)
    (count : Nat) (keys : List Row) :
    (groupOrder order count keys).Perm ((ofCount count).groupKeys count keys) := by
  match count with
  | 0 => exact .refl _
  | 1 => exact isPerm _
  | count + 2 => exact .refl _

/-- The groups may come in any order in which the strategy gives them up. -/
theorem exists_groupOrder {count : Nat} {keys left : List Row}
    (perm : left.Perm ((ofCount count).groupKeys count keys))
    (inOrder : ofCount count = ordered → left = (ofCount count).groupKeys count keys) :
    ∃ order : List Row → List Row, (∀ keys, (order keys).Perm keys) ∧
      groupOrder order count keys = left := by
  match count with
  | 0 => exact ⟨id, .refl, (List.perm_singleton.mp perm).symm⟩
  | 1 =>
    refine ⟨fun others => if others = keys.eraseDups then left else others, fun others => ?_,
      if_pos rfl⟩
    dsimp only
    split
    · rename_i same
      exact same ▸ perm
    · exact .refl others
  | count + 2 => exact ⟨id, .refl, (inOrder rfl).symm⟩

theorem mem_groupKeys {strategy : GroupStrategy} {count : Nat} {keys : List Row} {key : Row}
    (isKey : key ∈ keys) (single : count = 0 → key = []) : key ∈ strategy.groupKeys count keys := by
  unfold groupKeys
  split
  · exact List.mem_singleton.mpr (single ‹_›)
  · exact mem_arrange.mpr isKey

/-- The key of a group is the key of a row, unless there is nothing to group by. -/
theorem mem_of_mem_groupKeys {strategy : GroupStrategy} {count : Nat} {keys : List Row} {key : Row}
    (isKey : key ∈ strategy.groupKeys count keys) : count = 0 ∧ key = [] ∨ key ∈ keys := by
  unfold groupKeys at isKey
  split at isKey
  · exact .inl ⟨‹_›, List.mem_singleton.mp isKey⟩
  · exact .inr (mem_arrange.mp isKey)

section Locate

variable {strategy : GroupStrategy} {key stored : Row}

theorem eq_of_locate (keyCanonical : IsCanonical key) (storedCanonical : IsCanonical stored)
    (located : strategy.locate key stored = .eq) : key = stored := by
  cases strategy with
  | hash =>
    simp only [locate] at located
    split at located
    · exact GroupKey.encode_injective keyCanonical storedCanonical ‹_›
    · cases located
  | ordered =>
    rw [locate, GroupKey.compare_of_isCanonical keyCanonical storedCanonical] at located
    exact Std.LawfulEqCmp.eq_of_compare located

theorem precedes_of_locate_gt (keyCanonical : IsCanonical key)
    (storedCanonical : IsCanonical stored) (located : strategy.locate key stored = .gt) :
    strategy.Precedes stored key := by
  cases strategy with
  | hash =>
    rintro rfl
    simp [locate] at located
  | ordered =>
    rw [locate, GroupKey.compare_of_isCanonical keyCanonical storedCanonical] at located
    exact Std.OrientedCmp.lt_of_gt located

/-- Only ascending keys stop a key from being looked for further on. -/
theorem ordered_of_locate_lt (keyCanonical : IsCanonical key)
    (storedCanonical : IsCanonical stored) (located : strategy.locate key stored = .lt) :
    strategy = .ordered ∧ Scalar.compareTuples key stored = .lt := by
  cases strategy with
  | hash =>
    simp only [locate] at located
    split at located <;> cases located
  | ordered =>
    rw [locate, GroupKey.compare_of_isCanonical keyCanonical storedCanonical] at located
    exact ⟨rfl, located⟩

end Locate

end GroupStrategy

end ColumnQuery
