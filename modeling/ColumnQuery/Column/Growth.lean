import ColumnQuery.Column

/-! # Columns that grow

A column can take the cells of another one where it is. Whatever stores the cells puts them
together, and only when this is done does the column change. Several columns can be appended to each
other in more than one order of the appends, which an `Appending` records.
-/

namespace ColumnQuery

/-- How the stored cells of two columns are put together. -/
abbrev ColumnJoin := Column → Column → Except Error Column

namespace Column

/-- Put the cells of `other` after those of a column, where it is. -/
def extend (join : ColumnJoin) (receiver other : Column) : Except Error Unit × Column :=
  if receiver.type ≠ other.type then (.error (.appendMismatch other.type receiver.type), receiver)
  else
    match join receiver other with
    | .error error => (.error error, receiver)
    | .ok joined => (.ok (), joined)

/-- Extend a column by others, one after the other. Those that it does not take are passed over. -/
def extendAll (join : ColumnJoin) (receiver : Column) (others : List Column) : Column :=
  others.foldl (fun column other => (column.extend join other).2) receiver

end Column

/-- Columns, appended to each other. -/
inductive Appending where
  | single (column : Column)
  | append (receiver other : Appending)

namespace Appending

def columns : Appending → List Column
  | single column => [column]
  | append receiver other => receiver.columns ++ other.columns

/-- The column that the appends make. -/
def result : Appending → Except Error Column
  | single column => .ok column
  | append receiver other => do (← receiver.result).append (← other.result)

end Appending

end ColumnQuery
