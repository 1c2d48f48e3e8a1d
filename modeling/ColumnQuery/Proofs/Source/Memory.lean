import ColumnQuery.Proofs.Traversal
import ColumnQuery.Source.MemoryTable

/-! # Tables built in memory

A table that is built of partitions holds just these, all visible at its version, and every batch
has the columns of the table.
-/

namespace ColumnQuery

theorem Schema.sameColumns_iff {schema other : Schema} :
    schema.sameColumns other = true ↔ schema.names = other.names ∧ schema.types = other.types := by
  simp [sameColumns]

namespace MemoryTable

/-- Every batch of a table in memory has the columns of the table. -/
def Uniform (table : MemoryTable) : Prop :=
  ∀ partition ∈ table.partitions, ∀ batch ∈ partition.batches,
    batch.schema.sameColumns table.schema = true

/-- No partition is newer than the table. -/
def Current (table : MemoryTable) : Prop :=
  ∀ partition ∈ table.partitions, partition.version ≤ table.version

private theorem append_eq_ok {table grown : MemoryTable} {batches : List Batch}
    (added : table.append batches = .ok grown) :
    (∀ batch ∈ batches, batch.schema.sameColumns table.schema = true) ∧
      grown = ⟨table.name, table.schema, table.version + 1,
        table.partitions ++ [⟨table.version + 1, batches⟩]⟩ := by
  unfold append at added
  split at added
  · rename_i same
    cases added
    exact ⟨List.all_eq_true.mp same, rfl⟩
  · cases added

/-- What holds of the empty table and is kept by appending holds of a table that is built. -/
theorem built_keeps {P : MemoryTable → Prop}
    (keeps : ∀ {table grown batches}, P table → table.append batches = .ok grown → P grown)
    {partitions : List (List Batch)} {table grown : MemoryTable} (holds : P table)
    (added : partitions.foldlM append table = .ok grown) : P grown := by
  induction partitions generalizing table with
  | nil =>
    cases added
    exact holds
  | cons batches rest ih =>
    obtain ⟨next, first, later⟩ := bind_eq_ok_iff.mp added
    exact ih (keeps holds first) later

variable {name : String} {schema : Schema} {partitions : List (List Batch)} {table : MemoryTable}

theorem uniform_of_built (built : ofPartitions name schema partitions = .ok table) :
    table.Uniform := by
  refine built_keeps (fun {table grown batches} uniform added => ?_)
    (fun _ isMember => (List.not_mem_nil isMember).elim) built
  obtain ⟨same, rfl⟩ := append_eq_ok added
  intro partition isMember
  rcases List.mem_append.mp isMember with before | new
  · exact uniform partition before
  · rw [List.mem_singleton.mp new]
    exact same

private theorem current_of_built (built : ofPartitions name schema partitions = .ok table) :
    table.Current := by
  refine built_keeps (fun {table grown batches} current added => ?_)
    (fun _ isMember => (List.not_mem_nil isMember).elim) built
  obtain ⟨-, rfl⟩ := append_eq_ok added
  intro partition isMember
  rcases List.mem_append.mp isMember with before | new
  · exact Nat.le_succ_of_le (current partition before)
  · obtain rfl := List.mem_singleton.mp new
    exact Nat.le_refl _

theorem schema_of_built (built : ofPartitions name schema partitions = .ok table) :
    table.schema = schema := by
  refine built_keeps (P := fun table => table.schema = schema)
    (fun {table grown batches} same added => ?_) rfl built
  obtain ⟨-, rfl⟩ := append_eq_ok added
  exact same

theorem batches_of_added {table grown : MemoryTable}
    (added : partitions.foldlM append table = .ok grown) :
    grown.partitions.map (·.batches) = table.partitions.map (·.batches) ++ partitions := by
  induction partitions generalizing table with
  | nil =>
    cases added
    exact (List.append_nil _).symm
  | cons batches rest ih =>
    obtain ⟨next, first, later⟩ := bind_eq_ok_iff.mp added
    obtain ⟨-, rfl⟩ := append_eq_ok first
    rw [ih later, List.map_append, List.append_assoc]
    rfl

/-- All partitions are visible at the version of a table. -/
theorem visible_of_built (built : ofPartitions name schema partitions = .ok table) :
    table.visible table.version = partitions := by
  have all : (table.partitions.filter fun partition => partition.version ≤ table.version) =
      table.partitions :=
    List.filter_eq_self.mpr fun partition isMember =>
      decide_eq_true (current_of_built built partition isMember)
  rw [visible, all, batches_of_added built]
  rfl

end MemoryTable

end ColumnQuery
