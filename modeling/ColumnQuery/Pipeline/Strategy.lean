import ColumnQuery.Pipeline.Stage

/-! # Strategies of aggregation

An aggregation runs with a hash table or with an ordered table. A registry decides which, from the
shape of the aggregation, and holds the way to build the stage of each strategy.
-/

namespace ColumnQuery

abbrev StageBuilder := Aggregation → Except Error Stage

/-- Build a stage with an empty table of a strategy. An operand that its function does not accept
is refused here already. -/
def GroupStrategy.build (strategy : GroupStrategy) : StageBuilder := fun aggregation => do
  discard aggregation.newAccumulators
  return .aggregate aggregation (.empty strategy)

/-- Choices and builders of strategies. -/
structure StrategyRegistry where
  select : Aggregation → GroupStrategy
  builder? : GroupStrategy → Option StageBuilder

namespace StrategyRegistry

/-- Order the groups where there is more than one group expression. -/
def byArity (aggregation : Aggregation) : GroupStrategy :=
  if 1 < aggregation.groups.length then .ordered else .hash

/-- Both strategies with their own builders, chosen by the number of group expressions. -/
def standard : StrategyRegistry where
  select := byArity
  builder? strategy := some strategy.build

/-- Choose one strategy in any case. -/
def always (registry : StrategyRegistry) (strategy : GroupStrategy) : StrategyRegistry :=
  { registry with select := fun _ => strategy }

/-- Set the builder of a strategy, and say whether it replaces one. -/
def register (registry : StrategyRegistry) (strategy : GroupStrategy) (builder : StageBuilder) :
    Bool × StrategyRegistry :=
  ((registry.builder? strategy).isSome,
    { registry with
      builder? := fun other => if other = strategy then some builder else registry.builder? other })

def create (registry : StrategyRegistry) (aggregation : Aggregation) : Except Error Stage :=
  let strategy := registry.select aggregation
  match registry.builder? strategy with
  | some builder => builder aggregation
  | none => .error (.noConstructor strategy)

end StrategyRegistry

end ColumnQuery
