import ColumnQuery.Aggregate.Accumulator
import ColumnQuery.Aggregate.Function
import ColumnQuery.Aggregate.Meaning
import ColumnQuery.Batch
import ColumnQuery.Batch.Held
import ColumnQuery.Binary64
import ColumnQuery.Column
import ColumnQuery.Column.Growth
import ColumnQuery.CommandLine.Failure
import ColumnQuery.CommandLine.Options
import ColumnQuery.CommandLine.Run
import ColumnQuery.Config.Basic
import ColumnQuery.Config.Json
import ColumnQuery.DataType
import ColumnQuery.Decimal.Layout
import ColumnQuery.Decimal.Reading
import ColumnQuery.Decimal.Shortest
import ColumnQuery.Delivery.Basic
import ColumnQuery.Delivery.Schedule
import ColumnQuery.Error
import ColumnQuery.Expr.Basic
import ColumnQuery.Expr.Bound
import ColumnQuery.Expr.Checking
import ColumnQuery.Expr.Evaluation
import ColumnQuery.Expr.Meaning
import ColumnQuery.Expr.Typing
import ColumnQuery.Group.Key
import ColumnQuery.Group.Table
import ColumnQuery.Main
import ColumnQuery.Metrics.Basic
import ColumnQuery.Metrics.Exposition
import ColumnQuery.Operator
import ColumnQuery.Optimizer.Pushdown
import ColumnQuery.Optimizer.Registry
import ColumnQuery.Pipeline.Aggregation
import ColumnQuery.Pipeline.Chain
import ColumnQuery.Pipeline.Compile
import ColumnQuery.Pipeline.Execution
import ColumnQuery.Pipeline.Physical
import ColumnQuery.Pipeline.Sink
import ColumnQuery.Pipeline.Stage
import ColumnQuery.Pipeline.Strategy
import ColumnQuery.Plan.Basic
import ColumnQuery.Plan.Builder
import ColumnQuery.Plan.Explain
import ColumnQuery.Plan.Meaning
import ColumnQuery.Plan.Validation
import ColumnQuery.Query.State
import ColumnQuery.Scalar
import ColumnQuery.Schema
import ColumnQuery.Session.Basic
import ColumnQuery.Session.Frame
import ColumnQuery.Session.Identifier
import ColumnQuery.Source.Basic
import ColumnQuery.Source.MemoryTable
import ColumnQuery.Source.Reading
import ColumnQuery.Source.StoredTable
import ColumnQuery.Text.Blank
import ColumnQuery.Text.Emoji
import ColumnQuery.Text.Formless
import ColumnQuery.Text.Integer
import ColumnQuery.Text.Mark
import ColumnQuery.Text.Quoted
import ColumnQuery.Text.Ranges
import ColumnQuery.Text.Table
import ColumnQuery.Text.Width
import ColumnQuery.Text.Width.Character
import ColumnQuery.Text.Width.Tail
import ColumnQuery.Text.Wrap
import ColumnQuery.Proofs.Aggregate.Acceptance
import ColumnQuery.Proofs.Aggregate.Fold
import ColumnQuery.Proofs.Aggregate.Reordering
import ColumnQuery.Proofs.Aggregate.Results
import ColumnQuery.Proofs.Batch.Build
import ColumnQuery.Proofs.Batch.Handling
import ColumnQuery.Proofs.Batch.Required
import ColumnQuery.Proofs.Batch.Rows
import ColumnQuery.Proofs.Column.Building
import ColumnQuery.Proofs.Column.Growth
import ColumnQuery.Proofs.CommandLine.Options
import ColumnQuery.Proofs.Delivery.Conservation
import ColumnQuery.Proofs.Delivery.Ending
import ColumnQuery.Proofs.Delivery.Failures
import ColumnQuery.Proofs.Delivery.Handing
import ColumnQuery.Proofs.Delivery.Loads
import ColumnQuery.Proofs.Delivery.OneWorker
import ColumnQuery.Proofs.Delivery.Outcome
import ColumnQuery.Proofs.Delivery.Steps
import ColumnQuery.Proofs.Expr.Agreement
import ColumnQuery.Proofs.Expr.Binding
import ColumnQuery.Proofs.Expr.Checking
import ColumnQuery.Proofs.Expr.Compilation
import ColumnQuery.Proofs.Expr.Operators
import ColumnQuery.Proofs.Group.Agreement
import ColumnQuery.Proofs.Group.History
import ColumnQuery.Proofs.Group.Key
import ColumnQuery.Proofs.Group.Lookup
import ColumnQuery.Proofs.Group.Order
import ColumnQuery.Proofs.Group.Sameness
import ColumnQuery.Proofs.Group.Table
import ColumnQuery.Proofs.Group.TotalOrder
import ColumnQuery.Proofs.Optimizer.Narrowing
import ColumnQuery.Proofs.Optimizer.Pushdown
import ColumnQuery.Proofs.Optimizer.Registry
import ColumnQuery.Proofs.Optimizer.Validity
import ColumnQuery.Proofs.Pipeline.Absorption
import ColumnQuery.Proofs.Pipeline.Aggregation
import ColumnQuery.Proofs.Pipeline.Answers
import ColumnQuery.Proofs.Pipeline.Driving
import ColumnQuery.Proofs.Pipeline.Handovers
import ColumnQuery.Proofs.Pipeline.Interchange
import ColumnQuery.Proofs.Pipeline.KeyFiltering
import ColumnQuery.Proofs.Pipeline.Nodes
import ColumnQuery.Proofs.Pipeline.Phases
import ColumnQuery.Proofs.Pipeline.Ready
import ColumnQuery.Proofs.Pipeline.Renewal
import ColumnQuery.Proofs.Pipeline.Reordering
import ColumnQuery.Proofs.Pipeline.Running
import ColumnQuery.Proofs.Pipeline.Schedules
import ColumnQuery.Proofs.Pipeline.Sending
import ColumnQuery.Proofs.Pipeline.Splitting
import ColumnQuery.Proofs.Plan.Building
import ColumnQuery.Proofs.Plan.Compilation
import ColumnQuery.Proofs.Plan.Exactness
import ColumnQuery.Proofs.Plan.Execution
import ColumnQuery.Proofs.Plan.Filtering
import ColumnQuery.Proofs.Plan.KeyFiltering
import ColumnQuery.Proofs.Plan.Reordering
import ColumnQuery.Proofs.Plan.Rows
import ColumnQuery.Proofs.Plan.Validation
import ColumnQuery.Proofs.Plan.Wiring
import ColumnQuery.Proofs.Scalar.Floats
import ColumnQuery.Proofs.Scalar.Order
import ColumnQuery.Proofs.Schema.Lookup
import ColumnQuery.Proofs.Schema.Resolution
import ColumnQuery.Proofs.Session.Accounting
import ColumnQuery.Proofs.Session.Completion
import ColumnQuery.Proofs.Session.Safety
import ColumnQuery.Proofs.Session.Workload
import ColumnQuery.Proofs.Source.Batches
import ColumnQuery.Proofs.Source.Binding
import ColumnQuery.Proofs.Source.Fidelity
import ColumnQuery.Proofs.Source.Memory
import ColumnQuery.Proofs.Source.Presentation
import ColumnQuery.Proofs.Source.Projection
import ColumnQuery.Proofs.Source.Reading
import ColumnQuery.Proofs.Source.Scanning
import ColumnQuery.Proofs.Source.Sharing
import ColumnQuery.Proofs.Source.Snapshots
import ColumnQuery.Proofs.Text.ByteOrder
import ColumnQuery.Proofs.Traversal
import ColumnQuery.Proofs.Plan.Arrangement
