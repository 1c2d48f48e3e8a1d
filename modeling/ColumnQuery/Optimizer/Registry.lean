import ColumnQuery.Optimizer.Pushdown

/-! # The optimizer

A rule turns one plan into another, or fails. An optimizer runs the pushdown of projections and then
the registered rules in the order of their names, each on the result of the one before. It stops at
the first rule that fails. At most one rule is registered under a name; registering another replaces
it.
-/

namespace ColumnQuery

/-- A named change of plans. -/
structure Rule where
  name : String
  change : Plan → Except Error Plan

/-- Narrow the leaf to the columns in use. -/
def Rule.pushdown : Rule where
  name := "projection_pushdown"
  change := Plan.pushdown

/-- The registered rules, ascending by name. -/
structure Optimizer where
  rules : List Rule

namespace Optimizer

def empty : Optimizer := ⟨[]⟩

def has (optimizer : Optimizer) (name : String) : Bool :=
  optimizer.rules.any fun rule => rule.name == name

/-- Put a rule in its place among others. -/
def insert (added : Rule) : List Rule → List Rule
  | [] => [added]
  | rule :: rest =>
    if added.name < rule.name then added :: rule :: rest
    else if added.name = rule.name then added :: rest
    else rule :: insert added rest

/-- Register a rule under its name, and say whether it replaces one. -/
def register (optimizer : Optimizer) (rule : Rule) : Bool × Optimizer :=
  (optimizer.has rule.name, ⟨insert rule optimizer.rules⟩)

/-- Remove the rule of a name, and say whether there was one. -/
def deregister (optimizer : Optimizer) (name : String) : Bool × Optimizer :=
  (optimizer.has name, ⟨optimizer.rules.filter fun rule => rule.name != name⟩)

/-- Run some rules in order up to the first that fails. The rules that ran are returned as well,
the failing one included. -/
def runRules : List Rule → Plan → List Rule × Except Error Plan
  | [], plan => ([], .ok plan)
  | rule :: rest, plan =>
    match rule.change plan with
    | .error error => ([rule], .error error)
    | .ok changed =>
      let (ran, outcome) := runRules rest changed
      (rule :: ran, outcome)

def optimize (optimizer : Optimizer) (plan : Plan) : Except Error Plan :=
  (runRules (.pushdown :: optimizer.rules) plan).2

/-- The registered rules that run when a plan is optimized. -/
def trace (optimizer : Optimizer) (plan : Plan) : List Rule :=
  (runRules (.pushdown :: optimizer.rules) plan).1.drop 1

def text (optimizer : Optimizer) : String :=
  s!"Optimizer \x7b builtin_rules: [\"{Rule.pushdown.name}\"], " ++
    s!"custom_rules: {optimizer.rules.length} \x7d"

end Optimizer

end ColumnQuery
