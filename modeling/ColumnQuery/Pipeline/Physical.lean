import ColumnQuery.Pipeline.Chain

/-! # Physical plans

A physical plan is a scan with the chains that it feeds, or a chain by itself. It is displayed in
the order of the data, each operator one tab deeper than the one that feeds it.
-/

namespace ColumnQuery

/-- A scan of a table and the chains that receive its batches. -/
structure Scan where
  path : String
  projection : Option (List String)
  schema : Schema
  children : List Chain
  deriving DecidableEq, Repr

/-- Operators that are linked and ready to run. -/
inductive PhysicalPlan where
  | scan (scan : Scan)
  | chain (chain : Chain)
  deriving DecidableEq, Repr

/-- Lines each one tab deeper than the one before. -/
def staircase (depth : Nat) : List String → String
  | [] => ""
  | line :: rest => indented depth line ++ staircase (depth + 1) rest

namespace Scan

def text (scan : Scan) : String :=
  indented 0 s!"Scan: {scan.path}; projection={projectionText scan.projection}" ++
    String.join (scan.children.map fun chain => staircase 1 chain.headlines)

/-- The kinds of all operators with the schemas of their results. -/
def nodes (scan : Scan) : List (String × Schema) :=
  ("Scan", scan.schema) :: scan.children.flatMap Chain.nodes

end Scan

namespace PhysicalPlan

def text : PhysicalPlan → String
  | scan driver => driver.text
  | chain stages => staircase 0 stages.headlines

def nodes : PhysicalPlan → List (String × Schema)
  | scan driver => driver.nodes
  | chain stages => stages.nodes

def groupCounts : PhysicalPlan → List Nat
  | scan driver => driver.children.flatMap Chain.groupCounts
  | chain stages => stages.groupCounts

end PhysicalPlan

end ColumnQuery
