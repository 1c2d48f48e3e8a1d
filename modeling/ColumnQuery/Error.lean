import ColumnQuery.Expr.Bound
import ColumnQuery.Query.State

/-! # Errors

An error is a cause with the values that explain it. Its kind says which part of the system refuses
and its message is the kind's label followed by a text. Asking an operator for something outside its
role is not an error of this type but a `Misuse`; a `Fault` is either.
-/

namespace ColumnQuery

/-- Which part of the system refuses. -/
inductive ErrorKind where
  | validation
  | planning
  | type
  | source
  | execution
  | cancelled
  | configuration
  | file
  | unsupported
  deriving DecidableEq, Repr

namespace ErrorKind

/-- The words before the colon of a message. -/
def label : ErrorKind → String
  | validation => "validation error"
  | planning => "planning error"
  | type => "type error"
  | source => "source error"
  | execution => "execution error"
  | cancelled => "cancelled"
  | configuration => "invalid configuration"
  | file => "io error"
  | unsupported => "unsupported"

/-- The name of a kind in failure reports. -/
def name : ErrorKind → String
  | validation => "Validation"
  | planning => "Planning"
  | type => "Type"
  | source => "Source"
  | execution => "Execution"
  | cancelled => "Cancelled"
  | configuration => "InvalidConfig"
  | file => "Io"
  | unsupported => "Unsupported"

end ErrorKind

/-- Why a text is no natural number below a bound. -/
inductive IntegerFault where
  | empty
  | invalidDigit
  | tooLarge
  | tooSmall
  deriving DecidableEq, Repr

def IntegerFault.text : IntegerFault → String
  | empty => "cannot parse integer from empty string"
  | invalidDigit => "invalid digit found in string"
  | tooLarge => "number too large to fit in target type"
  | tooSmall => "number too small to fit in target type"

/-- Why the system does not open or read a file. -/
inductive FileFault where
  | notFound
  | isDirectory
  | nameTooLong
  deriving DecidableEq, Repr

namespace FileFault

def code : FileFault → Nat
  | notFound => 2
  | isDirectory => 21
  | nameTooLong => 36

def text : FileFault → String
  | notFound => "No such file or directory"
  | isDirectory => "Is a directory"
  | nameTooLong => "File name too long"

def message (fault : FileFault) : String := s!"{fault.text} (os error {fault.code})"

end FileFault

/-- Why the bytes of a file are no table. -/
inductive FormatFault where
  | tooSmall (size : Nat)
  | corruptFooter
  deriving DecidableEq, Repr

def FormatFault.message : FormatFault → String
  | tooSmall size => s!"EOF: Parquet file too small. Size is {size} but need 8"
  | corruptFooter => "Parquet error: Invalid Parquet file. Corrupt footer"

/-- Where an expression stands in a plan. -/
inductive ExprPlace where
  | projection
  | filter
  | groupBy
  | aggregateOperand
  deriving DecidableEq, Repr

def ExprPlace.text : ExprPlace → String
  | projection => "projection"
  | filter => "filter"
  | groupBy => "group by"
  | aggregateOperand => "aggregate operand"

/-- A step of a plan builder that needs an input below it. -/
inductive WrapStep where
  | project
  | filter
  | aggregate
  | output
  deriving DecidableEq, Repr

def WrapStep.name : WrapStep → String
  | project => "project"
  | filter => "filter"
  | aggregate => "aggregate"
  | output => "output"

/-- How an aggregation finds its groups and in which order they leave. -/
inductive GroupStrategy where
  | hash
  | ordered
  deriving DecidableEq, Repr

def GroupStrategy.name : GroupStrategy → String
  | hash => "hash"
  | ordered => "ordered"

inductive Error where
  -- columns and batches
  | unsupportedElement (type : DataType)
  | untypedConstant
  | misplacedValue (value : Scalar) (type : DataType)
  | notBoolean (type : DataType)
  | appendMismatch (appended receiver : DataType)
  | columnCount (columns fields : Nat)
  | columnLength (name : String) (rows expected : Nat)
  | columnType (name : String) (actual declared : DataType)
  | maskLength (entries rows : Nat)
  | rowOutOfBounds (row length : Nat)
  | nullInRequiredField (name : String)
  | ordinalOutOfBounds (ordinal fields : Nat)
  -- expressions
  | operandLengths (op : Operator) (left right : Nat)
  | operandTypes (op : Operator) (left right : DataType)
  | columnOutOfRange (index columns : Nat)
  | untypedNull
  | unknownColumn (name : String)
  | operandNotAccepted (function : AggregateFunction) (type : DataType)
  | columnNotInInput (name : String)
  -- accumulators
  | sumRejects (result : DataType) (value : Scalar)
  | sumOverflow
  | extremumRejects (value : Scalar) (type : DataType)
  | averageRejects (value : Scalar)
  | noAccumulator (function : AggregateFunction) (type : DataType)
  -- schemas and plans
  | columnNotInSchema (name : String)
  | inputTwice
  | stepBeforeInput (step : WrapStep)
  | missingInput
  | inputProjection (name : String)
  | emptyProjection
  | aggregateNotAllowed (place : ExprPlace) (expr : Expr)
  | predicateNotBoolean (predicate : Expr) (type : DataType)
  | emptyAggregate
  | notAnAggregate (expr : Expr)
  | outputNotLast
  | logicalOperands (op : Operator) (left right : DataType) (expr : Expr)
  | comparisonOperands (expr : Expr) (left right : DataType)
  -- compilation
  | rootNotOutput
  | nestedOutput
  | selectionNotBoolean (predicate : BoundExpr) (type : DataType)
  | unfoldable (expr : Expr)
  | noConstructor (strategy : GroupStrategy)
  -- sources
  | projectedColumnMissing (name : String)
  | tableSchemaMismatch (table : String)
  | fileUnopened (path : String) (fault : FileFault)
  | fileUnread (fault : FileFault)
  | fileUnformed (fault : FormatFault)
  | unsupportedColumn (type : DataType) (name : String)
  | declaredTypeDiffers (name : String) (declared : DataType) (path : String) (stored : DataType)
  | loadFailed (reason : String)
  | producerStopped
  | workerStopped (worker : Nat)
  -- queries, sinks and rules
  | alreadyStarted (query : Nat) (state : QueryState)
  | refused (reason : String)
  | notOffered (reason : String)
  -- configuration
  | zeroBatchSize
  | batchSizeSetting (raw : String) (fault : IntegerFault)
  | configFileInvalid (path : String)
  | configFileUnread (fault : FileFault)
  | configFileNotText
  deriving DecidableEq, Repr

namespace Error

def kind : Error → ErrorKind
  | unsupportedElement _ | untypedConstant | misplacedValue _ _ | notBoolean _ | appendMismatch _ _
  | columnCount _ _ | columnLength _ _ _ | columnType _ _ _ | maskLength _ _
  | operandLengths _ _ _ | operandTypes _ _ _
  | sumRejects _ _ | extremumRejects _ _ | averageRejects _ => .type
  | rowOutOfBounds _ _ | nullInRequiredField _ | columnOutOfRange _ _ | sumOverflow
  | alreadyStarted _ _ | refused _ => .execution
  | unknownColumn _ | operandNotAccepted _ _ | inputTwice | stepBeforeInput _ | missingInput
  | inputProjection _ | emptyProjection | aggregateNotAllowed _ _ | predicateNotBoolean _ _
  | emptyAggregate | notAnAggregate _ | outputNotLast | logicalOperands _ _ _ _
  | comparisonOperands _ _ _ => .validation
  | untypedNull | columnNotInInput _ | noAccumulator _ _ | columnNotInSchema _ | rootNotOutput
  | nestedOutput | selectionNotBoolean _ _ | unfoldable _ | noConstructor _ => .planning
  | ordinalOutOfBounds _ _ | projectedColumnMissing _ | tableSchemaMismatch _
  | fileUnopened _ _ | fileUnread _ | fileUnformed _ | unsupportedColumn _ _
  | declaredTypeDiffers _ _ _ _ | loadFailed _ => .source
  | producerStopped | workerStopped _ => .cancelled
  | notOffered _ => .unsupported
  | zeroBatchSize | batchSizeSetting _ _ | configFileInvalid _ => .configuration
  | configFileUnread _ | configFileNotText => .file

/-- The text of a cause, without the label of its kind. -/
def text : Error → String
  | unsupportedElement type => s!"unsupported vector element type {type.name}"
  | untypedConstant => "cannot build a constant vector from an untyped null"
  | misplacedValue value type => s!"cannot place value '{value.text}' in a {type.name} vector"
  | notBoolean type => s!"expected a Boolean vector, got {type.name}"
  | appendMismatch appended receiver =>
    s!"cannot append a {appended.name} vector to a {receiver.name} vector"
  | columnCount columns fields => s!"batch has {columns} columns but schema has {fields} fields"
  | columnLength name rows expected => s!"column '{name}' has {rows} rows, expected {expected}"
  | columnType name actual declared =>
    s!"column '{name}' is {actual.name} but schema declares {declared.name}"
  | maskLength entries rows => s!"selection mask has {entries} entries for a batch of {rows} rows"
  | rowOutOfBounds row length => s!"row {row} out of bounds for vector of length {length}"
  | nullInRequiredField name =>
    s!"record batch assembly failed: Invalid argument error: Column '{name}' is declared as " ++
      "non-nullable but contains null values"
  | ordinalOutOfBounds ordinal fields =>
    s!"batch projection failed: Schema error: project index {ordinal} out of bounds, " ++
      s!"max field {fields}"
  | operandLengths op left right =>
    s!"operands of {op.symbol} do not have the same length: {left} vs {right}"
  | operandTypes op left right => s!"type mismatch for {op.symbol}: {left.name} vs {right.name}"
  | columnOutOfRange index columns =>
    s!"column #{index} out of range for batch with {columns} columns"
  | untypedNull => "untyped null literal"
  | unknownColumn name => s!"unknown column '{name}'"
  | operandNotAccepted function type => s!"{function.name}() does not accept {type.name} operands"
  | columnNotInInput name => s!"no column named '{name}' in input schema"
  | sumRejects result value => s!"sum producing {result.name} cannot accept value '{value.text}'"
  | sumOverflow => "sum overflowed Int64"
  | extremumRejects value type =>
    s!"value '{value.text}' does not match aggregate input type {type.name}"
  | averageRejects value => s!"avg cannot accept non-numeric value '{value.text}'"
  | noAccumulator function type =>
    s!"validation error: {function.name}() does not accept {type.name} operands"
  | columnNotInSchema name => s!"column '{name}' not found in schema"
  | inputTwice => "input() called on a builder that already has an input"
  | stepBeforeInput step => s!"{step.name}() called before input()"
  | missingInput => "plan has no input"
  | inputProjection name =>
    s!"input projection: planning error: column '{name}' not found in schema"
  | emptyProjection => "projection has no expressions"
  | aggregateNotAllowed place expr =>
    s!"aggregate function not allowed in {place.text}: {expr.text}"
  | predicateNotBoolean predicate type =>
    s!"filter predicate {predicate.text} is {type.name}, expected Boolean"
  | emptyAggregate => "aggregate has no expressions"
  | notAnAggregate expr => s!"{expr.text} is not an aggregate function"
  | outputNotLast => "output must be the last operation"
  | logicalOperands op left right expr =>
    s!"{op.symbol} needs Boolean operands, got {left.name} and {right.name} in {expr.text}"
  | comparisonOperands expr left right =>
    s!"type mismatch in {expr.text}: {left.name} vs {right.name}"
  | rootNotOutput => "plan root must be an output operation"
  | nestedOutput => "output operation must be the root of the plan"
  | selectionNotBoolean predicate type =>
    s!"selection predicate {predicate.text} has type {type.name}, expected Boolean"
  | unfoldable expr => s!"{expr.text} is not an aggregate function"
  | noConstructor strategy => s!"no constructor registered for {strategy.name} aggregation"
  | projectedColumnMissing name => s!"projected column '{name}' not found in source"
  | tableSchemaMismatch table => s!"batch schema does not match table '{table}'"
  | fileUnopened path fault => s!"cannot open parquet file '{path}': {fault.message}"
  | fileUnread fault => s!"parquet reader build failed: External: {fault.message}"
  | fileUnformed fault => s!"parquet reader build failed: {fault.message}"
  | unsupportedColumn type name => s!"unsupported type {type.name} for column '{name}'"
  | declaredTypeDiffers name declared path stored =>
    s!"column '{name}' is declared {declared.name} but '{path}' stores {stored.name}"
  | loadFailed reason => reason
  | producerStopped => "scan producer stopped"
  | workerStopped worker => s!"scan worker {worker} cancelled"
  | alreadyStarted query state => s!"query {query} cannot start: it is {state.name}"
  | refused reason => reason
  | notOffered reason => reason
  | zeroBatchSize => "batch_size_rows must be greater than zero"
  | batchSizeSetting raw fault => s!"TDF_BATCH_SIZE_ROWS='{raw}': {fault.text}"
  | configFileInvalid path => s!"config file '{path}' is not valid"
  | configFileUnread fault => fault.message
  | configFileNotText => "stream did not contain valid UTF-8"

def message (error : Error) : String := s!"{error.kind.label}: {error.text}"

end Error

/-- Calling an operator outside its role, which no input makes right. -/
inductive Misuse where
  | rowwiseAggregate (expr : BoundExpr)
  | callbackOnScan
  | finishOnScan
  | executeOn (operator : String)
  | missingField (fields index : Nat)
  deriving DecidableEq, Repr

def Misuse.text : Misuse → String
  | rowwiseAggregate expr =>
    s!"aggregate expression {expr.text} evaluated row-wise; only aggregate operators may fold it"
  | callbackOnScan => "callback() called on a scan; scans only produce"
  | finishOnScan => "finish() called on a scan; scans finish their children"
  | executeOn operator => s!"execute() called on {operator}; only a scan can drive a query"
  | missingField fields index =>
    s!"index out of bounds: the len is {fields} but the index is {index}"

/-- The ways in which running an operator can fail. -/
inductive Fault where
  | error (error : Error)
  | misuse (misuse : Misuse)
  deriving DecidableEq, Repr

/-- Run a computation that only fails with errors. -/
def liftError {α : Type} : Except Error α → Except Fault α
  | .ok value => .ok value
  | .error error => .error (.error error)

instance {α : Type} : Coe (Except Error α) (Except Fault α) := ⟨liftError⟩

end ColumnQuery
