import ColumnQuery.Batch
import ColumnQuery.Proofs.Schema.Resolution

/-! # Building batches

Building succeeds exactly when its checks hold, and gives what it was asked for.
-/

namespace ColumnQuery

namespace Batch

private theorem mismatch?_of_matches {rowCount : Nat} {fields : List Field} {columns : List Column}
    (valid : Matches ⟨fields⟩ columns rowCount) : mismatch? rowCount fields columns = none := by
  induction fields generalizing columns with
  | nil => cases columns <;> rfl
  | cons field fields ih =>
    cases columns with
    | nil => rfl
    | cons column columns =>
      obtain ⟨types, lengths⟩ := valid
      obtain ⟨type, types⟩ := List.cons.inj types
      have length := lengths column List.mem_cons_self
      have rest := ih ⟨types, fun other isMember => lengths other (List.mem_cons_of_mem _ isMember)⟩
      simp only [mismatch?, length, type, ne_eq, not_true_eq_false, if_false, rest]

theorem build_eq_ok_iff {schema : Schema} {columns : List Column} {rowCount : Nat}
    {batch : Batch} :
    build schema columns rowCount = .ok batch ↔
      batch.schema = schema ∧ batch.columns = columns ∧ batch.rowCount = rowCount := by
  unfold build
  constructor
  · intro success
    split at success
    · split at success
      · cases success
      · cases success
        exact ⟨rfl, rfl, rfl⟩
    · cases success
  · rintro ⟨rfl, rfl, rfl⟩
    have count : batch.columns.length = batch.schema.fields.length := by
      simpa [Schema.types] using congrArg List.length batch.matching.types
    rw [dif_pos count]
    split
    · rename_i error found
      rw [mismatch?_of_matches batch.matching] at found
      cases found
    · rfl

/-- Columns that match a schema make a batch. -/
theorem build_of_matches {schema : Schema} {columns : List Column} {rowCount : Nat}
    (valid : Matches schema columns rowCount) :
    build schema columns rowCount = .ok ⟨schema, columns, rowCount, valid⟩ :=
  build_eq_ok_iff.mpr ⟨rfl, rfl, rfl⟩

theorem project_eq_ok {batch projected : Batch} {ordinals : List Nat}
    (success : batch.project ordinals = .ok projected) :
    ordinals.map (batch.schema.fields[·]?) = projected.schema.fields.map some ∧
      ordinals.map (batch.columns[·]?) = projected.columns.map some ∧
      projected.rowCount = batch.rowCount := by
  obtain ⟨schema, fields, success⟩ := bind_eq_ok_iff.mp success
  obtain ⟨columns, found, success⟩ := bind_eq_ok_iff.mp success
  obtain ⟨rfl, rfl, rowCount⟩ := build_eq_ok_iff.mp success
  refine ⟨Schema.project_eq_ok_iff.mp fields, ?_, rowCount⟩
  refine (mapM_eq_ok_iff_of_find fun ordinal column => ?_).mp found
  split <;> simp_all

theorem length_columns (batch : Batch) : batch.columns.length = batch.schema.fields.length := by
  simpa [Schema.types] using congrArg List.length batch.matching.types

theorem type_of_getElem? {batch : Batch} {index : Nat} {field : Field} {column : Column}
    (isField : batch.schema.fields[index]? = some field)
    (isColumn : batch.columns[index]? = some column) : column.type = field.type := by
  have same := congrArg (fun types : List DataType => types[index]?) batch.matching.types
  simpa [Schema.types, isField, isColumn] using same

/-- Columns that a batch has can be chosen from it. -/
theorem exists_project {batch : Batch} {ordinals : List Nat}
    (found : ∀ ordinal ∈ ordinals, ordinal < batch.schema.fields.length) :
    ∃ projected, batch.project ordinals = .ok projected := by
  have chosen (ordinal : Nat) (isMember : ordinal ∈ ordinals) : ∃ pair : Field × Column,
      batch.schema.fields[ordinal]? = some pair.1 ∧ batch.columns[ordinal]? = some pair.2 := by
    have isField := found ordinal isMember
    have isColumn : ordinal < batch.columns.length := by rwa [length_columns]
    exact ⟨(batch.schema.fields[ordinal], batch.columns[ordinal]), List.getElem?_eq_getElem _,
      List.getElem?_eq_getElem _⟩
  obtain ⟨pairs, each⟩ := exists_forall₂ chosen
  have fields : batch.schema.project ordinals = .ok ⟨pairs.map (·.1)⟩ := by
    rw [Schema.project_eq_ok_iff, List.map_map]
    exact map_eq_map_of_forall₂ (each.imp fun _ _ both => both.1)
  have columns := (map_eq_map_of_forall₂ (each.imp fun _ _ both => both.2)).trans
    (List.map_map (f := (·.2)) (g := some)).symm
  have valid : Matches ⟨pairs.map (·.1)⟩ (pairs.map (·.2)) batch.rowCount := by
    constructor
    · rw [Schema.types, List.map_map, List.map_map]
      apply List.map_congr_left
      intro pair isPair
      obtain ⟨ordinal, -, isField, isColumn⟩ := exists_of_mem_forall₂ each isPair
      exact type_of_getElem? isField isColumn
    · intro column isMember
      obtain ⟨pair, isPair, rfl⟩ := List.mem_map.mp isMember
      obtain ⟨ordinal, -, -, isColumn⟩ := exists_of_mem_forall₂ each isPair
      exact batch.matching.lengths _ (List.mem_of_getElem? isColumn)
  refine ⟨_, bind_eq_ok_iff.mpr ⟨_, fields, bind_eq_ok_iff.mpr ⟨_, ?_, build_of_matches valid⟩⟩⟩
  refine (mapM_eq_ok_iff_of_find fun ordinal column => ?_).mpr columns
  split <;> simp_all

end Batch

end ColumnQuery
