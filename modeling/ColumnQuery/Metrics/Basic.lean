import ColumnQuery.Binary64

/-! # Metrics

Metrics are a record of what scans and queries did. A counter adds up amounts from the record, one
total for each value of its label; a histogram sorts durations into cumulative buckets. A value of
a label appears once something has been recorded under it.
-/

namespace ColumnQuery

/-- Something that happened. -/
inductive Recording where
  /-- A worker took a partition of a source. -/
  | partition (source : String)
  /-- A worker handed over a batch of a source. -/
  | batch (source : String) (rows : Nat)
  /-- A query ended. -/
  | query (outcome : String) (seconds : Binary64)
  deriving DecidableEq, Repr

/-- Everything that was recorded, in order. -/
structure Metrics where
  recordings : List Recording
  deriving DecidableEq, Repr

namespace Metrics

def empty : Metrics := ⟨[]⟩

def record (metrics : Metrics) (recordings : List Recording) : Metrics :=
  ⟨metrics.recordings ++ recordings⟩

/-- Record what a scan did with a source: the partitions taken, and the row counts of the batches
handed over. -/
def recordScan (metrics : Metrics) (source : String) (partitions : Nat) (batchRows : List Nat) :
    Metrics :=
  metrics.record (List.replicate partitions (.partition source) ++ batchRows.map (.batch source))

end Metrics

/-- A family of totals, one per value of a label. -/
structure Counter where
  name : String
  help : String
  label : String
  /-- The value of the label and the amount that a recording contributes. -/
  contribution? : Recording → Option (String × Nat)

namespace Counter

/-- How many queries ended, by outcome. -/
def queries : Counter where
  name := "tdf_queries_total"
  help := "Queries executed, by outcome"
  label := "outcome"
  contribution?
    | .query outcome _ => some (outcome, 1)
    | _ => none

/-- How many batches were handed over, by source. -/
def batches : Counter where
  name := "tdf_scan_batches_total"
  help := "Batches delivered by table scans"
  label := "source"
  contribution?
    | .batch source _ => some (source, 1)
    | _ => none

/-- How many partitions were taken, by source. -/
def partitions : Counter where
  name := "tdf_scan_partitions_total"
  help := "Source partitions (row groups) consumed by table scans"
  label := "source"
  contribution?
    | .partition source => some (source, 1)
    | _ => none

/-- How many rows were handed over, by source. -/
def rows : Counter where
  name := "tdf_scan_rows_total"
  help := "Rows delivered by table scans"
  label := "source"
  contribution?
    | .batch source count => some (source, count)
    | _ => none

/-- The amounts contributed under a value of the label, in order. -/
def amounts (counter : Counter) (metrics : Metrics) (value : String) : List Nat :=
  metrics.recordings.filterMap fun recording =>
    match counter.contribution? recording with
    | some (label, amount) => if label = value then some amount else none
    | none => none

/-- The exact total under a value of the label. -/
def total (counter : Counter) (metrics : Metrics) (value : String) : Nat :=
  (counter.amounts metrics value).foldl (· + ·) 0

/-- The total under a value of the label as it is read off: the amounts are added as floats. -/
def reading (counter : Counter) (metrics : Metrics) (value : String) : Binary64 :=
  (counter.amounts metrics value).foldl (fun sum (amount : Nat) => sum.add (.ofInt amount)) .zero

/-- The values of the label under which something was contributed, in order. -/
def labels (counter : Counter) (metrics : Metrics) : List String :=
  let values := metrics.recordings.filterMap fun recording =>
    (counter.contribution? recording).map (·.1)
  values.eraseDups.mergeSort fun left right => left ≤ right

end Counter

/-- A family of durations, sorted into cumulative buckets, one per outcome. -/
structure Histogram where
  name : String
  help : String
  /-- The upper bounds of the buckets, ascending; a last bucket has no bound. -/
  bounds : List Binary64

namespace Histogram

/-- The durations of queries. -/
def queryTime : Histogram where
  name := "tdf_query_time_seconds"
  help := "Wall time spent executing queries"
  bounds := [5, 10, 25, 50, 100, 250, 500, 1000, 2500, 5000, 10000].map fun (thousandths : Nat) =>
    (Binary64.ofInt thousandths).div (.ofInt 1000)

/-- A duration is not negative. -/
def duration (seconds : Binary64) : Binary64 :=
  if seconds.isNaN || seconds.isNegative then .zero else seconds

/-- The durations of the queries of an outcome, in order. -/
def durations (metrics : Metrics) (outcome : String) : List Binary64 :=
  metrics.recordings.filterMap fun recording =>
    match recording with
    | .query own seconds => if own = outcome then some (duration seconds) else none
    | _ => none

def countUpTo (bound : Binary64) (durations : List Binary64) : Nat :=
  durations.countP fun seconds => seconds.orderKey ≤ bound.orderKey

/-- The sum of durations, added as floats. -/
def sum (durations : List Binary64) : Binary64 := durations.foldl Binary64.add .zero

end Histogram

end ColumnQuery
