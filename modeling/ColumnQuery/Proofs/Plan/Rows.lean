import ColumnQuery.Proofs.Traversal
import ColumnQuery.Plan.Meaning

/-! # Rows before and after a change

Choosing rows by a mask and collecting the rows of a group commute with a change made to each row.
-/

namespace ColumnQuery

theorem keep_map {α β : Type} (change : α → β) (mask : List (Option Bool)) (items : List α) :
    keep mask (items.map change) = (keep mask items).map change := by
  induction mask generalizing items with
  | nil => rfl
  | cons entry mask ih =>
    cases items with
    | nil => simp only [List.map_nil, keep]
    | cons item items => rcases entry with _ | _ | _ <;> simp only [List.map_cons, keep, ih]

/-- A mask that is computed from the items keeps those for which it says so. -/
theorem keep_map_self {α : Type} (decide : α → Option Bool) (items : List α) :
    keep (items.map decide) items = items.filter fun item => decide item == some true := by
  induction items with
  | nil => rfl
  | cons item items ih =>
    rw [List.map_cons, List.filter_cons]
    rcases decide item with _ | _ | _ <;> simp [keep, ih]

theorem groupMembers_map (change : Row → Row) (keys rows : List Row) (key : Row) :
    groupMembers (keys.zip (rows.map change)) key =
      (groupMembers (keys.zip rows) key).map change := by
  unfold groupMembers
  rw [List.zip_map_right, List.filter_map, List.map_map, List.map_map]
  rfl

end ColumnQuery
