import ColumnQuery.Plan.Validation

/-! # Building plans

A builder starts with an input and wraps it step by step. A step that comes at the wrong moment
leaves the plan as it is; the first such step is remembered and reported when the plan is built.
-/

namespace ColumnQuery

/-- A step of building a plan. -/
inductive BuildStep where
  | input (table : TableInput)
  | project (exprs : List Expr)
  | filter (predicate : Expr)
  | aggregate (groups aggregates : List Expr)
  | output
  /-- Start again from a plan. -/
  | restart (plan : Plan)
  deriving DecidableEq, Repr

/-- A plan under construction and the first step that came at the wrong moment. -/
structure PlanBuilder where
  plan? : Option Plan
  mistake? : Option Error
  deriving DecidableEq, Repr

namespace PlanBuilder

def empty : PlanBuilder := ⟨none, none⟩

/-- Go on from a plan. -/
def ofPlan (plan : Plan) : PlanBuilder := ⟨some plan, none⟩

/-- Remember a mistake, unless there was one before. -/
def fail (builder : PlanBuilder) (mistake : Error) : PlanBuilder :=
  { builder with mistake? := builder.mistake?.or (some mistake) }

/-- Put a node on top of the plan. -/
def wrap (builder : PlanBuilder) (step : WrapStep) (node : Plan → Plan) : PlanBuilder :=
  match builder.plan? with
  | some plan => { builder with plan? := some (node plan) }
  | none => builder.fail (.stepBeforeInput step)

def input (builder : PlanBuilder) (table : TableInput) : PlanBuilder :=
  match builder.plan? with
  | some _ => builder.fail .inputTwice
  | none => { builder with plan? := some (.input table) }

def project (builder : PlanBuilder) (exprs : List Expr) : PlanBuilder :=
  builder.wrap .project (.project · exprs)

def filter (builder : PlanBuilder) (predicate : Expr) : PlanBuilder :=
  builder.wrap .filter (.filter · predicate)

def aggregate (builder : PlanBuilder) (groups aggregates : List Expr) : PlanBuilder :=
  builder.wrap .aggregate (.aggregate · groups aggregates)

def output (builder : PlanBuilder) : PlanBuilder := builder.wrap .output .output

def take (builder : PlanBuilder) : BuildStep → PlanBuilder
  | .input table => builder.input table
  | .project exprs => builder.project exprs
  | .filter predicate => builder.filter predicate
  | .aggregate groups aggregates => builder.aggregate groups aggregates
  | .output => builder.output
  | .restart plan => ofPlan plan

def run (builder : PlanBuilder) (steps : List BuildStep) : PlanBuilder := steps.foldl take builder

/-- The validated plan, or the first mistake made in building it. -/
def build (builder : PlanBuilder) : Except Error Plan :=
  match builder.mistake?, builder.plan? with
  | some mistake, _ => .error mistake
  | none, none => .error .missingInput
  | none, some plan => do
    plan.validate
    return plan

end PlanBuilder

end ColumnQuery
