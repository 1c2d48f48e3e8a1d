import ColumnQuery.Source.MemoryTable
import ColumnQuery.Source.StoredTable

/-! # Sources

A source is a table that can be scanned: one in memory or one in a file.
-/

namespace ColumnQuery

inductive Source where
  | memory (table : MemoryTable)
  /-- An opened file and what stands under its path now. -/
  | file (table : FileTable) (content : FileContent)
  deriving DecidableEq

namespace Source

/-- The name of a source in metrics. -/
def label : Source → String
  | memory table => table.name
  | file table _ => table.path

def schema : Source → Schema
  | memory table => table.schema
  | file table _ => table.schema

/-- The snapshot that a scan started now reads at. Files have no versions. -/
def snapshot : Source → Nat
  | memory table => table.version
  | file _ _ => 0

variable {World : Type}

/-- Deliver the batches of a source as they are at its present snapshot. -/
def push (source : Source) (consumers : Consumers World) (batchSize : Nat)
    (projection : Option (List String)) (cancelled : Bool) (world : World) :
    Delivery.Report World :=
  match source with
  | memory table => table.push consumers table.version projection cancelled world
  | file table content => table.push content consumers batchSize projection cancelled world

end Source

end ColumnQuery
