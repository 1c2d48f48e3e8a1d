import ColumnQuery.Proofs.Batch.Required
import ColumnQuery.Proofs.Source.Presentation

/-! # Faithful sources

A source is faithful when for every choice of columns that its schema has, it reads batches of
exactly these columns, with no null in a required one. A table in memory is faithful when its
batches have its own schema and no two of its names differ only in the case of their letters.
-/

namespace ColumnQuery

/-- Whatever a leaf reads of the source, the batches are of exactly the schema of the leaf, and no
required column holds a null. -/
def Source.IsFaithful (source : Source) (batchSize : Nat) : Prop :=
  ∀ (leaf : TableInput) (selected : Schema), leaf.source = source.schema →
    leaf.schema = .ok selected →
      ∃ batches, source.batches batchSize leaf.projection = .ok batches ∧
        ∀ batch ∈ batches, batch.schema = selected ∧ batch.nullInRequired? = none

/-- The cells at some positions of an allowed row are allowed by the fields at these positions. -/
theorem Schema.Allows.chosen {schema : Schema} {row : Row} (allows : schema.Allows row)
    {positions : List Nat} {fields : List Field}
    (found : positions.map (schema.fields[·]?) = fields.map some) :
    Schema.Allows ⟨fields⟩ (positions.map fun position => row.getD position .null) := by
  induction positions generalizing fields with
  | nil =>
    obtain rfl := List.map_eq_nil_iff.mp found.symm
    exact .nil
  | cons position positions ih =>
    cases fields with
    | nil => cases found
    | cons field fields =>
      obtain ⟨first, rest⟩ := List.cons.inj found
      exact .cons (allows.getD first) (ih rest)

/-- A batch without nulls in required columns gives the columns at some positions likewise. -/
theorem Batch.project_of_positions {batch : Batch} (required : batch.nullInRequired? = none)
    {positions : List Nat} {selected : Schema}
    (fields : positions.map (batch.schema.fields[·]?) = selected.fields.map some) :
    ∃ next, batch.project positions = .ok next ∧ next.schema = selected ∧
      next.nullInRequired? = none := by
  obtain ⟨next, success⟩ : ∃ next, batch.project positions = .ok next :=
    exists_project fun position isMember => by
      simpa using isSome_of_map_some fields position isMember
  obtain ⟨nextFields, columns, rowCount⟩ := project_eq_ok success
  obtain ⟨selected⟩ := selected
  have same : next.schema = ⟨selected⟩ :=
    congrArg Schema.mk (map_some_inj.mp (nextFields.symm.trans fields))
  refine ⟨next, success, same, next.nullInRequired?_eq_none_iff.mpr fun row isRow => ?_⟩
  rw [rows_of_chosen columns rowCount] at isRow
  obtain ⟨whole, isWhole, rfl⟩ := List.mem_map.mp isRow
  rw [same]
  exact (batch.nullInRequired?_eq_none_iff.mp required whole isWhole).chosen fields

/-- A table in memory of batches of exactly its schema is faithful, if no name stands for different
columns when the case of letters is ignored. -/
theorem MemoryTable.isFaithful_of_built {name : String} {schema : Schema}
    {partitions : List (List Batch)} {table : MemoryTable}
    (built : ofPartitions name schema partitions = .ok table)
    (stored : ∀ batch ∈ partitions.flatten, batch.schema = schema ∧ batch.nullInRequired? = none)
    (distinct : ∀ field ∈ schema.fields,
      schema.sourceOrdinal? field.name = schema.ordinalOf? field.name) (batchSize : Nat) :
    (Source.memory table).IsFaithful batchSize := by
  rintro ⟨path, source, projection⟩ selected planned read
  obtain rfl : source = schema := planned.trans (schema_of_built built)
  cases projection with
  | none =>
    cases read
    exact ⟨partitions.flatten, batches_of_whole built batchSize, stored⟩
  | some names =>
    obtain ⟨positions, named, fields⟩ := Schema.positions_of_select read
    -- the leaf only reads names of fields, and the source finds these fields under them
    have resolved : source.resolve names = .ok positions := by
      rw [Schema.resolve_eq_ok_iff, ← named]
      apply List.map_congr_left
      intro name isName
      obtain ⟨field, found⟩ := Option.isSome_iff_exists.mp
        (isSome_of_map_some (Schema.select_eq_ok_iff.mp read) name isName)
      rw [← Schema.name_of_field? found]
      exact distinct field (List.mem_of_find?_eq_some found)
    obtain ⟨nexts, batches, flat⟩ := batches_of_resolved built batchSize resolved
      (P := fun _ next => next.schema = selected ∧ next.nullInRequired? = none)
      fun batch isMember => by
        obtain ⟨rfl, required⟩ := stored batch isMember
        exact Batch.project_of_positions required fields
    refine ⟨nexts, batches, ?_⟩
    intro batch isMember
    obtain ⟨_, -, selects⟩ := exists_of_mem_forall₂ flat isMember
    exact selects

end ColumnQuery
