import ColumnQuery.Aggregate.Meaning
import ColumnQuery.Expr.Meaning
import ColumnQuery.Plan.Basic

/-! # The rows that a plan means

A plan over a table with given rows means a list of rows. This says what running the plan computes,
without batches, positions or operators: a filter keeps the rows on which its predicate is true, a
projection maps each row, and an aggregation makes one row per group, or a single row where there
is nothing to group by. Groups are told apart by their values with both zeros taken as one and all
NaNs as one. They come ascending by their values where there is more than one group expression, and
in any order where there is a single one: what a plan means is said for each choice of these orders.
The only failure of a well formed plan is an integer sum that leaves 64 bits.
-/

namespace ColumnQuery

/-- The rows that a leaf reads. -/
def TableInput.rows (table : TableInput) (contents : List Row) : List Row :=
  match table.projection with
  | none => contents
  | some names => contents.map fun row => names.map (table.source.cellOf row)

/-- The group values of a row. -/
def groupKeyOn (schema : Schema) (groups : List Expr) (row : Row) : Except Error Row :=
  groups.mapM fun expr => return (← expr.evaluateOn .groupBy schema row).canonical

/-- The orders in which the groups of single group expressions come. The order of an aggregation may
depend on the keys of its groups and on the number of operators below it. -/
structure GroupArrangement where
  arrange : (depth : Nat) → List Row → List Row
  isPerm : ∀ depth keys, (arrange depth keys).Perm keys

/-- All groups come in the order of their first rows. -/
def GroupArrangement.firstSeen : GroupArrangement := ⟨fun _ keys => keys, fun _ keys => .refl keys⟩

/-- The keys of the groups of some rows, each once, for a number of group expressions. Without group
expressions there is one empty key, even if there are no rows. -/
def groupOrder (arrange : List Row → List Row) (count : Nat) (keys : List Row) : List Row :=
  match count with
  | 0 => [[]]
  | 1 => arrange keys.eraseDups
  | _ => keys.eraseDups.mergeSort fun left right => (Scalar.compareTuples left right).isLE

/-- The rows of a group, in order. -/
def groupMembers (keyed : List (Row × Row)) (key : Row) : List Row :=
  (keyed.filter fun (own, _) => own == key).map (·.2)

/-- The value of an entry of an aggregate list on the rows of a group. -/
def Expr.valueOnGroup (schema : Schema) (rows : List Row) : Expr → Except Error Scalar
  | aggregate function operand => do
    let type ← operand.type schema
    discard <| function.resultType type
    function.valueOn type (← rows.mapM fun row => operand.evaluateOn .aggregateOperand schema row)
  | other => .error (.unfoldable other)

namespace Plan

/-- The number of operators that change the rows of the table. -/
def depth : Plan → Nat
  | input _ => 0
  | project below _ | filter below _ | aggregate below _ _ => below.depth + 1
  | output below => below.depth

/-- The rows that a plan means over the rows of its table. -/
def rows (arrangement : GroupArrangement) (contents : List Row) : Plan → Except Error (List Row)
  | input table => do
    discard table.schema
    return table.rows contents
  | project below exprs => do
    let schema ← below.schema
    let received ← below.rows arrangement contents
    received.mapM fun row => exprs.mapM (Expr.evaluateOn .projection schema row)
  | filter below predicate => do
    let schema ← below.schema
    let received ← below.rows arrangement contents
    return keep (← received.mapM fun row => predicate.truthOn schema row) received
  | aggregate below groups aggregates => do
    let schema ← below.schema
    let received ← below.rows arrangement contents
    let keys ← received.mapM (groupKeyOn schema groups)
    (groupOrder (arrangement.arrange below.depth) groups.length keys).mapM fun key => do
      let members := groupMembers (keys.zip received) key
      return key ++ (← aggregates.mapM (Expr.valueOnGroup schema members))
  | output below => below.rows arrangement contents

end Plan

end ColumnQuery
