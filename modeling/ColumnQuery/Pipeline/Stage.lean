import ColumnQuery.Pipeline.Aggregation
import ColumnQuery.Plan.Explain

/-! # Stages

A stage is one step of a running query. A projection and a filter hand on each batch at once,
transformed; an aggregation keeps what it receives and hands on one batch when the input ends.
-/

namespace ColumnQuery

/-- A step of a running query, with what it has kept so far. -/
inductive Stage where
  | project (exprs : List BoundExpr) (schema : Schema)
  | filter (predicate : BoundExpr) (schema : Schema)
  | aggregate (aggregation : Aggregation) (table : GroupTable)
  deriving DecidableEq, Repr

namespace Stage

/-- The schema of the batches that a stage hands on. -/
def schema : Stage → Schema
  | project _ schema | filter _ schema => schema
  | aggregate aggregation _ => aggregation.schema

/-- The kind of a stage, for display. -/
def name : Stage → String
  | project _ _ => "Projection"
  | filter _ _ => "Selection"
  | aggregate _ ⟨.hash, _⟩ => "HashAggregate"
  | aggregate _ ⟨.ordered, _⟩ => "OrderedAggregate"

/-- What a stage does, after its name. -/
def details : Stage → String
  | project exprs _ => ", ".intercalate (exprs.map BoundExpr.text)
  | filter predicate _ => predicate.text
  | aggregate aggregation _ =>
    aggregationText (aggregation.groups.map BoundExpr.text)
      (aggregation.aggregates.map AggregateInput.text)

def headline (stage : Stage) : String := s!"{stage.name}: {stage.details}"

/-- The number of groups that an aggregation holds; other stages hold none. -/
def groupCount? : Stage → Option Nat
  | project _ _ | filter _ _ => none
  | aggregate _ table => some table.size

/-- The values of some expressions as a batch. -/
def projected (exprs : List BoundExpr) (schema : Schema) (batch : Batch) : Except Fault Batch := do
  let columns ← evaluateAll batch exprs
  liftError (Batch.build schema columns batch.rowCount)

/-- The rows of a batch for which a predicate is true. -/
def filtered (predicate : BoundExpr) (batch : Batch) : Except Fault Batch := do
  let truths ← predicate.evaluate batch
  let mask ← liftError truths.asBoolean
  liftError (batch.shrink mask)

/-- Receive a batch, and hand one on unless it is kept. -/
def receive (stage : Stage) (batch : Batch) : Except Fault (Option Batch) × Stage :=
  match stage with
  | project exprs schema => ((projected exprs schema batch).map some, stage)
  | filter predicate _ => ((filtered predicate batch).map some, stage)
  | aggregate aggregation table =>
    let (outcome, table) := aggregation.absorb table batch
    (outcome.map fun _ => none, aggregate aggregation table)

/-- Learn that the input has ended, and hand on what was kept to the later stages. -/
def close (order : DrainOrder) (later : Nat) (stage : Stage) :
    Except Fault (Option Batch) × Stage :=
  match stage with
  | project _ _ | filter _ _ => (.ok none, stage)
  | aggregate aggregation table =>
    let (flushed, table) := aggregation.flush order later table
    (flushed.map some, aggregate aggregation table)

end Stage

end ColumnQuery
