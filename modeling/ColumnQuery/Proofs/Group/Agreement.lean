import ColumnQuery.Proofs.Aggregate.Results
import ColumnQuery.Proofs.Batch.Rows
import ColumnQuery.Proofs.Group.Table
import Mathlib.Data.List.Nodup

/-! # Tables of the same groups

Two tables may hold the same groups in different orders, each in the order of its strategy. A key
then has the same accumulators in both, or is new to both, so that a row that enters both changes
them alike, also when it is refused half way.
-/

namespace ColumnQuery

open GroupKey (IsCanonical)

/-- A group with a canonical key of some types and with results of some types. -/
structure GroupEntry.IsOf (groupTypes resultTypes : List DataType) (entry : GroupEntry) : Prop where
  canonical : IsCanonical entry.values
  fits : RowFits groupTypes entry.values
  yields : Accumulator.YieldEach entry.accumulators resultTypes

variable {groupTypes resultTypes : List DataType}

theorem GroupEntry.IsOf.fits_row {entry : GroupEntry} (isOf : entry.IsOf groupTypes resultTypes) :
    RowFits (groupTypes ++ resultTypes) entry.row :=
  List.rel_append isOf.fits
    (List.forall₂_map_left_iff.mpr (isOf.yields.imp fun _ _ yields => yields.fits_result))

namespace GroupTable

namespace Place

variable {strategy other : GroupStrategy} {key : Row} {fresh accumulators others : List Accumulator}
  {before after entries otherBefore otherAfter otherEntries : List GroupEntry}

/-- With an entry at the place of its key, a table is in the order of its strategy. -/
theorem arranged_put (place : Place strategy key fresh before after accumulators entries)
    (arranged : strategy.Arranged (entries.map (·.values))) (changed : List Accumulator) :
    strategy.Arranged ((before ++ ⟨key, changed⟩ :: after).map (·.values)) := by
  rw [List.map_append, List.map_cons]
  cases place with
  | found => rwa [List.map_append, List.map_cons] at arranged
  | opened absent placed => exact placed

/-- What holds of fresh accumulators and of those in a table holds of those at a place. -/
theorem holds_accumulators {P : List Accumulator → Prop}
    (place : Place strategy key fresh before after accumulators entries) (start : P fresh)
    (each : ∀ entry ∈ entries, P entry.accumulators) : P accumulators := by
  cases place with
  | found => exact each _ (List.mem_append_right _ List.mem_cons_self)
  | opened => exact start

/-- In tables of the same groups a key has the same accumulators, and the other groups are the
same. -/
theorem same_of_perm (place : Place strategy key fresh before after accumulators entries)
    (otherPlace : Place other key fresh otherBefore otherAfter others otherEntries)
    (once : (entries.map (·.values)).Nodup) (perm : entries.Perm otherEntries) :
    accumulators = others ∧ (before ++ after).Perm (otherBefore ++ otherAfter) := by
  have keys := perm.map (·.values)
  cases place with
  | found =>
    have isMember : (⟨key, accumulators⟩ : GroupEntry) ∈ before ++ ⟨key, accumulators⟩ :: after :=
      List.mem_append_right _ List.mem_cons_self
    cases otherPlace with
    | found =>
      have isOther : (⟨key, others⟩ : GroupEntry) ∈ before ++ ⟨key, accumulators⟩ :: after :=
        perm.mem_iff.mpr (List.mem_append_right _ List.mem_cons_self)
      have same := List.inj_on_of_nodup_map once isMember isOther rfl
      cases same
      exact ⟨rfl, (List.perm_middle.symm.trans (perm.trans List.perm_middle)).cons_inv⟩
    | opened absent =>
      exact absurd (keys.mem_iff.mp (List.mem_map_of_mem isMember)) absent
  | opened absent =>
    cases otherPlace with
    | found =>
      have isOther : (⟨key, others⟩ : GroupEntry) ∈ otherBefore ++ ⟨key, others⟩ :: otherAfter :=
        List.mem_append_right _ List.mem_cons_self
      exact absurd (keys.mem_iff.mpr (List.mem_map_of_mem isOther)) absent
    | opened => exact ⟨rfl, perm⟩

end Place

/-- Two tables hold the same groups of some types, each in the order of its strategy. -/
structure Agrees (groupTypes resultTypes : List DataType) (left right : GroupTable) : Prop where
  perm : left.entries.Perm right.entries
  leftArranged : left.strategy.Arranged (left.entries.map (·.values))
  rightArranged : right.strategy.Arranged (right.entries.map (·.values))
  typed : ∀ entry ∈ left.entries, entry.IsOf groupTypes resultTypes

theorem agrees_empty (left right : GroupStrategy) :
    (empty left).Agrees groupTypes resultTypes (empty right) where
  perm := .nil
  leftArranged := List.Pairwise.nil
  rightArranged := List.Pairwise.nil
  typed _ isMember := (List.not_mem_nil isMember).elim

/-- A row that enters two tables of the same groups changes them alike. -/
theorem Agrees.update {left right : GroupTable} (agrees : left.Agrees groupTypes resultTypes right)
    {key : Row} (keyCanonical : IsCanonical key) (keyFits : RowFits groupTypes key)
    {fresh : List Accumulator}
    (yields : Accumulator.YieldEach fresh resultTypes) (operands : Row) :
    (left.update key (.ok fresh) (Accumulator.accumulateEach · operands)).1 =
        (right.update key (.ok fresh) (Accumulator.accumulateEach · operands)).1 ∧
      (left.update key (.ok fresh) (Accumulator.accumulateEach · operands)).2.Agrees groupTypes
        resultTypes (right.update key (.ok fresh) (Accumulator.accumulateEach · operands)).2 := by
  obtain ⟨before, after, accumulators, place, updated⟩ :=
    updateEntries_eq keyCanonical (fun entry isMember => (agrees.typed entry isMember).canonical)
      agrees.leftArranged fresh (Accumulator.accumulateEach · operands)
  obtain ⟨otherBefore, otherAfter, others, otherPlace, otherUpdated⟩ :=
    updateEntries_eq keyCanonical
      (fun entry isMember => (agrees.typed entry (agrees.perm.mem_iff.mpr isMember)).canonical)
      agrees.rightArranged fresh (Accumulator.accumulateEach · operands)
  obtain ⟨rfl, perm⟩ := place.same_of_perm otherPlace
    (GroupStrategy.nodup_of_arranged agrees.leftArranged) agrees.perm
  rw [GroupTable.update, GroupTable.update, updated, otherUpdated]
  refine ⟨rfl, ?_, place.arranged_put agrees.leftArranged _,
    otherPlace.arranged_put agrees.rightArranged _, fun entry isMember => ?_⟩
  · exact List.perm_middle.trans ((perm.cons _).trans List.perm_middle.symm)
  · rcases List.mem_cons.mp (List.perm_middle.mem_iff.mp isMember) with rfl | isOther
    · have known : Accumulator.YieldEach accumulators resultTypes :=
        place.holds_accumulators (P := (Accumulator.YieldEach · resultTypes)) yields
          fun entry isMember => (agrees.typed entry isMember).yields
      exact ⟨keyCanonical, keyFits, known.accumulateEach operands⟩
    · exact agrees.typed entry (place.other agrees.leftArranged isOther).2

end GroupTable

end ColumnQuery
