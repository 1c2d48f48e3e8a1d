import ColumnQuery.CommandLine.Failure
import ColumnQuery.Decimal.Reading
import ColumnQuery.Session.Frame

/-! # The command line

A command reads a table from a file, filters it, sums a column of it by group, and writes the
result as a table; on demand it explains the query first. What it writes is a function of its
words, of the setting in the environment, of the files and of the order in which groups come.
-/

namespace ColumnQuery.CommandLine

/-- What a command leaves behind. -/
structure Transcript where
  code : UInt32
  output : String
  errors : String
  deriving DecidableEq, Repr

/-- What a command finds around it. -/
structure Surroundings where
  /-- The batch size that the environment sets. -/
  setting : Option String
  /-- What is found under each path. -/
  content : String → FileContent
  /-- How the hash tables of the children of a scan drain. -/
  orders : Nat → DrainOrder

/-- Lines with their ends. -/
def unlines (lines : List String) : String := String.join (lines.map (· ++ "\n"))

def usageLines : List String :=
  ["Usage:",
    "  tdf <file.parquet> [--filter-eq col=value] [--group-by col] [--sum col]",
    "      [--explain] [--config PATH]",
    "",
    "Logging is configured through RUST_LOG (default: warn)."]

def asksForUsage (words : List String) : Bool :=
  words.isEmpty || words.contains "--help" || words.contains "-h"

/-- The settings of a session: those of a file where one is named, else those of the
environment. -/
def loadConfig (around : Surroundings) (options : QueryOptions) : Except Error EngineConfig :=
  match options.config with
  | some path => EngineConfig.ofFile path (around.content path)
  | none => EngineConfig.ofEnvironment around.setting

/-- Read a whole number of a width. -/
def readWord (bits : Nat) (text : String) : Except Failure Int :=
  let limit : Nat := 1 <<< (bits - 1)
  (Text.readInteger limit (limit - 1) text.toList).mapError .integer

/-- Read the constant of a type that a text gives. -/
def readLiteral (type : DataType) (text : String) : Except Failure Literal :=
  match type with
  | .int32 => do return .int32 (Int32.ofInt (← readWord 32 text))
  | .int64 => do return .int64 (Int64.ofInt (← readWord 64 text))
  | .float64 =>
    match Decimal.read text.toList with
    | some value => .ok (.float64 value)
    | none => .error (.float text.isEmpty)
  | .boolean =>
    if text = "true" then .ok (.boolean true)
    else if text = "false" then .ok (.boolean false)
    else .error .boolean
  | .utf8 => .ok (.utf8 text)
  | other => .error (.unfilterable other)

/-- The rows in which a column has the value that a text gives. -/
def filterBy (schema : Schema) (column text : String) (frame : Frame) : Except Failure Frame :=
  match schema.field? column with
  | none => .error (.unknownFilterColumn column)
  | some field => do
    let value ← readLiteral field.type text
    return frame.filter (.binary .eq (.column column) (.literal value))

def ofEngine {α : Type} (result : Except Error α) : Except Failure α :=
  result.mapError fun error => .engine (.error error)

/-- The frame that options ask for. -/
def frameOf (around : Surroundings) (options : QueryOptions) : Except Failure Frame := do
  let content := around.content options.path
  let table ← ofEngine (FileTable.openAt options.path none content)
  let frame := Frame.ofSource options.path (.file table content)
  let frame ← options.filter.elim (.ok frame) fun (column, text) =>
    filterBy table.schema column text frame
  return options.sum.elim frame fun column =>
    frame.aggregate (options.groupBy.toList.map Expr.column) [.aggregate .sum (.column column)]

/-- Write sections under their titles, up to the first that fails. -/
def writeSections : List (String × Except Error String) → String × Except Error Unit
  | [] => ("", .ok ())
  | (title, section?) :: rest =>
    let heading := s!"== {title} ==\n"
    match section? with
    | .error error => (heading, .error error)
    | .ok text =>
      let (written, outcome) := writeSections rest
      (heading ++ text ++ written, outcome)

/-- The plans of a frame, one per section. -/
def planSections (frame : Frame) (session : Session) : List (String × Except Error String) :=
  [("logical plan", frame.logicalPlan.map Plan.text),
    ("optimized logical plan", (frame.optimizedPlan session).map Plan.text),
    ("physical plan", (frame.physicalPlan session).map fun scan => (PhysicalPlan.scan scan).text)]

def resultText (records : List RecordSet) : String :=
  if records.all fun set => set.rowCount == 0 then "OK: 0 rows\n"
  else unlines (TextTable.ofRecords records).lines

/-- Run the query of some options. What was written before a failure stays. -/
def query (around : Surroundings) (options : QueryOptions) : String × Except Failure Unit :=
  let prepared := do
    let config ← ofEngine (loadConfig around options)
    return (Session.start config, ← frameOf around options)
  match prepared with
  | .error failure => ("", .error failure)
  | .ok (session, frame) =>
    let sections := if options.explain then planSections frame session else []
    match writeSections sections with
    | (written, .error error) => (written, .error (.engine (.error error)))
    | (written, .ok ()) =>
      match (frame.collect session around.orders .zero).1 with
      | .error fault => (written, .error (.engine fault))
      | .ok records => (written ++ resultText records, .ok ())

def run (around : Surroundings) (words : List String) : Transcript :=
  if asksForUsage words then ⟨0, "", unlines usageLines⟩
  else
    let (written, outcome) : String × Except Failure Unit :=
      match QueryOptions.parse words with
      | .error error => ("", .error (.usage error))
      | .ok options => query around options
    match outcome with
    | .ok () => ⟨0, written, ""⟩
    | .error failure => ⟨1, written, unlines ["Error: " ++ failure.report]⟩

/-- The paths of the files that a command reads. -/
def pathsOf (words : List String) : List String :=
  match QueryOptions.parse words with
  | .ok options => options.path :: options.config.toList
  | .error _ => []

end ColumnQuery.CommandLine
