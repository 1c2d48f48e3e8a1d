import ColumnQuery.Aggregate.Accumulator
import ColumnQuery.Group.Key

/-! # Group tables

A group table holds one entry per group seen, with the group values of the row that opened it and
one accumulator per aggregate. The hash strategy recognises a group by its encoded key and gives the
groups up in any order; the ordered strategy keeps them ascending by key.
-/

namespace ColumnQuery

structure GroupEntry where
  values : List Scalar
  accumulators : List Accumulator
  deriving DecidableEq, Repr

/-- The group values of an entry and the results of its accumulators. -/
def GroupEntry.row (entry : GroupEntry) : List Scalar :=
  entry.values ++ entry.accumulators.map Accumulator.result

/-- Where a key stands to the key of a stored group: at it, before it, or further on. -/
def GroupStrategy.locate (strategy : GroupStrategy) (values stored : List Scalar) : Ordering :=
  match strategy with
  | .hash => if GroupKey.encode values = GroupKey.encode stored then .eq else .gt
  | .ordered => GroupKey.compare values stored

structure GroupTable where
  strategy : GroupStrategy
  entries : List GroupEntry
  deriving DecidableEq, Repr

/-- A change to the accumulators of a group, which may be refused half way. -/
abbrev AccumulatorChange := List Accumulator → Except Error Unit × List Accumulator

namespace GroupTable

def empty (strategy : GroupStrategy) : GroupTable := ⟨strategy, []⟩

def size (table : GroupTable) : Nat := table.entries.length

def find? (table : GroupTable) (values : List Scalar) : Option GroupEntry :=
  table.entries.find? fun entry => table.strategy.locate values entry.values == .eq

def changeEntry (change : AccumulatorChange) (entry : GroupEntry) :
    Except Error Unit × GroupEntry :=
  let (outcome, accumulators) := change entry.accumulators
  (outcome, { entry with accumulators })

/-- Open a group in front of the entries `rest`; without accumulators for it nothing changes. -/
def openEntry (values : List Scalar) (fresh : Except Error (List Accumulator))
    (change : AccumulatorChange) (rest : List GroupEntry) : Except Error Unit × List GroupEntry :=
  match fresh with
  | .error error => (.error error, rest)
  | .ok accumulators =>
    let (outcome, entry) := changeEntry change ⟨values, accumulators⟩
    (outcome, entry :: rest)

/-- Change the entry of a key among some entries, opening it where the strategy places it. -/
def updateEntries (strategy : GroupStrategy) (values : List Scalar)
    (fresh : Except Error (List Accumulator)) (change : AccumulatorChange) :
    List GroupEntry → Except Error Unit × List GroupEntry
  | [] => openEntry values fresh change []
  | entry :: rest =>
    match strategy.locate values entry.values with
    | .lt => openEntry values fresh change (entry :: rest)
    | .eq =>
      let (outcome, changed) := changeEntry change entry
      (outcome, changed :: rest)
    | .gt =>
      let (outcome, changed) := updateEntries strategy values fresh change rest
      (outcome, entry :: changed)

/-- Change the group of a key. A group that is not there yet is opened with the accumulators
`fresh`; if there are none, the table stays as it is. -/
def update (table : GroupTable) (values : List Scalar) (fresh : Except Error (List Accumulator))
    (change : AccumulatorChange) : Except Error Unit × GroupTable :=
  let (outcome, entries) := updateEntries table.strategy values fresh change table.entries
  (outcome, { table with entries })

end GroupTable

/-- The orders in which hash tables give up their groups. An order may depend on the groups, on the
order of their opening and on the number of stages that come after. -/
structure DrainOrder where
  arrange : (later : Nat) → List GroupEntry → List GroupEntry
  isPerm : ∀ later entries, (arrange later entries).Perm entries

/-- All groups leave in the order of their opening. -/
def DrainOrder.opening : DrainOrder := ⟨fun _ entries => entries, fun _ entries => .refl entries⟩

namespace GroupTable

/-- Take all groups out of a table that some stages come after. -/
def drain (order : DrainOrder) (later : Nat) (table : GroupTable) : List GroupEntry × GroupTable :=
  let drained :=
    match table.strategy with
    | .hash => order.arrange later table.entries
    | .ordered => table.entries
  (drained, empty table.strategy)

variable (order : DrainOrder) (later : Nat) (table : GroupTable)

theorem drain_perm : (table.drain order later).1.Perm table.entries := by
  unfold drain
  cases table.strategy with
  | hash => exact order.isPerm later table.entries
  | ordered => exact .refl _

theorem drain_of_ordered (sorted : table.strategy = .ordered) :
    (table.drain order later).1 = table.entries := by
  simp only [drain, sorted]

end GroupTable

end ColumnQuery
