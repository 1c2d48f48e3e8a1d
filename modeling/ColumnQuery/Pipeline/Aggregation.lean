import ColumnQuery.Expr.Evaluation
import ColumnQuery.Group.Table

/-! # Grouped aggregation

An aggregation absorbs batches into a group table and leaves it as one batch. The group values and
operands of a batch are evaluated for all its rows first; then the rows enter their groups one by
one, and what entered before a failure stays. An aggregation without group expressions has exactly
one group, even over no rows.
-/

namespace ColumnQuery

/-- A function to fold, its operand and the type of the operand. -/
structure AggregateInput where
  function : AggregateFunction
  operand : BoundExpr
  type : DataType
  deriving DecidableEq, Repr

def AggregateInput.text (input : AggregateInput) : String :=
  s!"{input.function.name}({input.operand.text})"

/-- What to group by, what to fold, and the schema of the result: first the group columns, then one
column per aggregate. -/
structure Aggregation where
  groups : List BoundExpr
  aggregates : List AggregateInput
  schema : Schema
  deriving DecidableEq, Repr

/-- The columns of some expressions over a batch. -/
def evaluateAll (batch : Batch) (exprs : List BoundExpr) : Except Fault (List Column) :=
  exprs.mapM (BoundExpr.evaluate batch)

namespace Aggregation

/-- Fresh accumulators for a group. -/
def newAccumulators (aggregation : Aggregation) : Except Error (List Accumulator) :=
  aggregation.aggregates.mapM fun input => Accumulator.create input.function input.type

/-- Enter rows, each given by its group values and its operands, up to the first failure. -/
def absorbRows (aggregation : Aggregation) :
    List (List Scalar × List Scalar) → GroupTable → Except Error Unit × GroupTable
  | [], table => (.ok (), table)
  | (values, operands) :: rest, table =>
    match table.update (values.map Scalar.canonical) aggregation.newAccumulators
        (Accumulator.accumulateEach · operands) with
    | (.ok (), table) => absorbRows aggregation rest table
    | (.error error, table) => (.error error, table)

/-- The rows of group values and operands that a batch contributes. -/
def contributions (aggregation : Aggregation) (batch : Batch) :
    Except Fault (List (List Scalar × List Scalar)) := do
  let values ← evaluateAll batch aggregation.groups
  let operands ← evaluateAll batch (aggregation.aggregates.map (·.operand))
  return (rowsOfColumns batch.rowCount values).zip (rowsOfColumns batch.rowCount operands)

def absorb (aggregation : Aggregation) (table : GroupTable) (batch : Batch) :
    Except Fault Unit × GroupTable :=
  match aggregation.contributions batch with
  | .error fault => (.error fault, table)
  | .ok rows =>
    let (outcome, table) := aggregation.absorbRows rows table
    (liftError outcome, table)

/-- The groups that leave: those of the table, or one fresh group where there is nothing to group
by. -/
def leaving (aggregation : Aggregation) (entries : List GroupEntry) :
    Except Error (List GroupEntry) :=
  if entries.isEmpty && aggregation.groups.isEmpty then do
    return [⟨[], ← aggregation.newAccumulators⟩]
  else .ok entries

/-- The column at a position of some rows, typed by the field of that position. -/
def columnAt (schema : Schema) (rows : List (List Scalar)) (index : Nat) : Except Fault Column :=
  match schema.fields[index]? with
  | none => .error (.misuse (.missingField schema.fields.length index))
  | some field => liftError (Column.ofScalars (rows.map (·.getD index .null)) field.type)

/-- The batch of some groups, one row each. -/
def batchOf (aggregation : Aggregation) (entries : List GroupEntry) : Except Fault Batch := do
  let rows := entries.map GroupEntry.row
  let columnCount := aggregation.groups.length + aggregation.aggregates.length
  let columns ← (List.range columnCount).mapM (columnAt aggregation.schema rows)
  liftError (Batch.build aggregation.schema columns entries.length)

/-- Take the groups out of a table as a batch. The table is empty afterwards in any case. -/
def flush (aggregation : Aggregation) (order : DrainOrder) (later : Nat) (table : GroupTable) :
    Except Fault Batch × GroupTable :=
  let (entries, emptied) := table.drain order later
  let flushed := do
    let entries ← liftError (aggregation.leaving entries)
    aggregation.batchOf entries
  (flushed, emptied)

end Aggregation

end ColumnQuery
