import ColumnQuery.Delivery.Schedule

/-! # Tables in memory

A table in memory grows by whole partitions. Each partition bears the version that it gave the
table, and a snapshot is a version: who reads at a snapshot sees the partitions up to it and no
later ones.
-/

namespace ColumnQuery

/-- A partition with the version that it gave its table. -/
structure VersionedPartition where
  version : Nat
  batches : List Batch
  deriving DecidableEq

/-- A table that grows by partitions. -/
structure MemoryTable where
  name : String
  schema : Schema
  version : Nat
  partitions : List VersionedPartition
  deriving DecidableEq

namespace MemoryTable

def empty (name : String) (schema : Schema) : MemoryTable := ⟨name, schema, 0, []⟩

/-- Add a partition of batches that have the columns of the table. -/
def append (table : MemoryTable) (batches : List Batch) : Except Error MemoryTable :=
  if batches.all fun batch => batch.schema.sameColumns table.schema then
    let version := table.version + 1
    .ok { table with version, partitions := table.partitions ++ [⟨version, batches⟩] }
  else .error (.tableSchemaMismatch table.name)

def ofPartitions (name : String) (schema : Schema) (partitions : List (List Batch)) :
    Except Error MemoryTable :=
  partitions.foldlM append (empty name schema)

/-- The partitions that are visible at a snapshot. -/
def visible (table : MemoryTable) (snapshot : Nat) : List (List Batch) :=
  (table.partitions.filter fun partition => partition.version ≤ snapshot).map (·.batches)

/-- The batches of a partition, or only some columns of them. -/
def load (ordinals : Option (List Nat)) (batches : List Batch) : Except Error (List Batch) :=
  match ordinals with
  | none => .ok batches
  | some ordinals => batches.mapM fun batch => batch.project ordinals

/-- How the partitions of a table are loaded for a scan, with all columns or only some. -/
def loader (table : MemoryTable) (projection : Option (List String)) :
    Except Error (List Batch → Except Error (List Batch)) := do
  return load (← projection.mapM table.schema.resolve)

variable {World : Type}

/-- Deliver the batches visible at a snapshot. -/
def push (table : MemoryTable) (consumers : Consumers World) (snapshot : Nat)
    (projection : Option (List String)) (cancelled : Bool) (world : World) :
    Delivery.Report World :=
  match table.loader projection with
  | .error error => .refused error world
  | .ok load =>
    let delivery : Delivery (List Batch) World := { consumers with load }
    (delivery.run (table.visible snapshot) world cancelled).report

end MemoryTable

end ColumnQuery
