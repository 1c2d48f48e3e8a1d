import ColumnQuery.Plan.Meaning
import ColumnQuery.Proofs.Batch.Build
import ColumnQuery.Proofs.Batch.Rows
import ColumnQuery.Proofs.Schema.Resolution
import ColumnQuery.Proofs.Source.Batches
import ColumnQuery.Proofs.Source.Memory

/-! # Sources that present a table

A source presents the rows of a leaf when the batches that a scan reads have the columns of the leaf
and all rows together are those of the leaf. A table in memory does so for every leaf whose names it
resolves exactly, however its rows are cut into partitions and batches.
-/

namespace ColumnQuery

/-- A source presents a leaf over some contents: its batches are of the types of the columns that
the leaf reads, and all their rows are the rows of the leaf. -/
structure Source.Presents (source : Source) (batchSize : Nat) (table : TableInput)
    (contents : List Row) (batches : List Batch) : Prop where
  read : source.batches batchSize table.projection = .ok batches
  types : ∀ schema, table.schema = .ok schema →
    ∀ batch ∈ batches, batch.schema.types = schema.types
  rows : batches.flatMap Batch.rows = table.rows contents

namespace MemoryTable

variable {name : String} {schema : Schema} {partitions : List (List Batch)} {table : MemoryTable}

private theorem batches_of_built (built : ofPartitions name schema partitions = .ok table)
    (batchSize : Nat) (projection : Option (List String)) :
    (Source.memory table).batches batchSize projection = do
      let ordinals ← projection.mapM schema.resolve
      return (← partitions.mapM (load ordinals)).flatten := by
  rw [Source.batches, visible_of_built built, loader, schema_of_built built]
  cases projection.mapM schema.resolve <;> rfl

theorem batches_of_whole (built : ofPartitions name schema partitions = .ok table)
    (batchSize : Nat) :
    (Source.memory table).batches batchSize none = .ok partitions.flatten := by
  have whole : partitions.mapM (load none) = .ok partitions := mapM_eq_ok_iff.mpr rfl
  rw [batches_of_built built]
  change (do return (← partitions.mapM (load none)).flatten) = _
  rw [whole]
  rfl

/-- A scan for some columns reads what the batches of all partitions give of them. -/
theorem batches_of_resolved (built : ofPartitions name schema partitions = .ok table)
    (batchSize : Nat) {names : List String} {positions : List Nat}
    (resolved : schema.resolve names = .ok positions) {P : Batch → Batch → Prop}
    (each : ∀ batch ∈ partitions.flatten, ∃ next, batch.project positions = .ok next ∧
      P batch next) :
    ∃ nexts, (Source.memory table).batches batchSize (some names) = .ok nexts ∧
      List.Forall₂ P partitions.flatten nexts := by
  have loads (batches : List Batch) (isPartition : batches ∈ partitions) :
      ∃ nexts, load (some positions) batches = .ok nexts ∧ List.Forall₂ P batches nexts :=
    exists_mapM fun batch isBatch => each batch (List.mem_flatten.mpr ⟨_, isPartition, isBatch⟩)
  obtain ⟨nexts, loaded, related⟩ := exists_mapM loads
  refine ⟨nexts.flatten, ?_, List.rel_flatten related⟩
  rw [batches_of_built built]
  change (do
    let ordinals ← some <$> schema.resolve names
    return (← partitions.mapM (load ordinals)).flatten) = _
  rw [resolved]
  change (do return (← partitions.mapM (load (some positions))).flatten) = _
  rw [loaded]
  rfl

/-- A batch of the columns of a schema gives the columns at some positions. -/
theorem presents_of_project {batch : Batch} {positions : List Nat} {selected : Schema}
    (types : batch.schema.types = schema.types)
    (fields : positions.map (schema.fields[·]?) = selected.fields.map some) :
    ∃ next, batch.project positions = .ok next ∧ next.schema.types = selected.types ∧
      next.rows = batch.rows.map fun row => positions.map fun position =>
        row.getD position .null := by
  have width : batch.schema.fields.length = schema.fields.length := by
    simpa [Schema.types] using congrArg List.length types
  obtain ⟨next, success⟩ : ∃ next, batch.project positions = .ok next := by
    apply Batch.exists_project
    intro position isMember
    have present := isSome_of_map_some fields position isMember
    simpa [width] using present
  obtain ⟨nextFields, columns, rowCount⟩ := Batch.project_eq_ok success
  refine ⟨next, success, map_some_inj.mp ?_, Batch.rows_of_chosen columns rowCount⟩
  rw [← Schema.types_of_positions nextFields, ← Schema.types_of_positions fields, types]

/-- All batches of a table that is built are of the types of the table. -/
theorem types_of_built (built : ofPartitions name schema partitions = .ok table) :
    ∀ batch ∈ partitions.flatten, batch.schema.types = schema.types := by
  intro batch isMember
  obtain ⟨batches, isPartition, isBatch⟩ := List.mem_flatten.mp isMember
  have stored : table.partitions.map (·.batches) = partitions := batches_of_added built
  rw [← stored] at isPartition
  obtain ⟨partition, isStored, rfl⟩ := List.mem_map.mp isPartition
  have same := uniform_of_built built partition isStored batch isBatch
  rw [schema_of_built built] at same
  exact (Schema.sameColumns_iff.mp same).2

/-- The cells of some names are those at the positions of the names. -/
theorem cells_of_positions {names : List String} {positions : List Nat}
    (named : names.map schema.ordinalOf? = positions.map some) (row : Row) :
    names.map (schema.cellOf row) = positions.map fun position => row.getD position .null := by
  have cells := congrArg (List.map fun position? : Option Nat =>
    position?.elim Scalar.null fun position => row.getD position .null) named
  rw [List.map_map, List.map_map] at cells
  refine Eq.trans (List.map_congr_left ?_) cells
  intro name _
  rw [Function.comp_apply, Schema.cellOf]
  cases schema.ordinalOf? name <;> rfl

/-- A table in memory presents every leaf whose names it resolves exactly. -/
theorem presents_of_built (built : ofPartitions name schema partitions = .ok table)
    {leaf : TableInput} {selected : Schema} (planned : leaf.source = schema)
    (read : leaf.schema = .ok selected)
    (exactly : ∀ names, leaf.projection = some names → ∀ column ∈ names,
      schema.sourceOrdinal? column = schema.ordinalOf? column) (batchSize : Nat) :
    ∃ batches, (Source.memory table).Presents batchSize leaf
      (partitions.flatten.flatMap Batch.rows) batches := by
  have sameTypes := types_of_built built
  obtain ⟨path, source, projection⟩ := leaf
  subst planned
  cases projection with
  | none =>
    refine ⟨partitions.flatten, batches_of_whole built batchSize, ?_, rfl⟩
    intro other same batch isMember
    cases same
    exact sameTypes batch isMember
  | some names =>
    obtain ⟨positions, named, fields⟩ := Schema.positions_of_select read
    have resolved : source.resolve names = .ok positions := by
      rw [Schema.resolve_eq_ok_iff, ← named]
      exact List.map_congr_left (exactly names rfl)
    obtain ⟨nexts, batches, flat⟩ := batches_of_resolved built batchSize resolved
      fun batch isMember => presents_of_project (sameTypes batch isMember) fields
    refine ⟨nexts, batches, ?_, ?_⟩
    · intro other same batch isMember
      obtain rfl : selected = other := Except.ok.inj (read.symm.trans same)
      obtain ⟨_, -, types, -⟩ := exists_of_mem_forall₂ flat isMember
      exact types
    · have rows := map_eq_map_of_forall₂ (flat.imp fun _ _ both => both.2.symm)
      simp only [TableInput.rows, cells_of_positions named]
      rw [List.flatMap, ← rows, ← List.flatMap, List.map_flatMap]

end MemoryTable

end ColumnQuery
