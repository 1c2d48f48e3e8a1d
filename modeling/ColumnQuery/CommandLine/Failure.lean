import ColumnQuery.CommandLine.Options
import ColumnQuery.Error
import ColumnQuery.Text.Quoted

/-! # Failure reports

A command that fails ends with one line that names the failure. Texts stand between quotes in it;
what is not a text is given by its parts.
-/

namespace ColumnQuery

/-- The name of an integer fault in failure reports. -/
def IntegerFault.name : IntegerFault → String
  | empty => "Empty"
  | invalidDigit => "InvalidDigit"
  | tooLarge => "PosOverflow"
  | tooSmall => "NegOverflow"

/-- The name of a file fault in failure reports. -/
def FileFault.name : FileFault → String
  | notFound => "NotFound"
  | isDirectory => "IsADirectory"
  | nameTooLong => "InvalidFilename"

/-- An error in failure reports. -/
def Error.report : Error → String
  | configFileUnread fault =>
    s!"Io(Os \x7b code: {fault.code}, kind: {fault.name}, message: " ++ Text.quote fault.text ++
      " \x7d)"
  | configFileNotText =>
    "Io(Error \x7b kind: InvalidData, message: \"stream did not contain valid UTF-8\" \x7d)"
  | error => error.kind.name ++ "(" ++ Text.quote error.text ++ ")"

namespace CommandLine

/-- Why a command fails. -/
inductive Failure where
  | usage (error : UsageError)
  | engine (fault : Fault)
  | unknownFilterColumn (column : String)
  | unfilterable (type : DataType)
  | integer (fault : IntegerFault)
  | float (isEmpty : Bool)
  | boolean
  deriving DecidableEq, Repr

def Failure.report : Failure → String
  | usage error => Text.quote error.text
  | engine (.error error) => error.report
  | engine (.misuse misuse) => Text.quote misuse.text
  | unknownFilterColumn column => Text.quote s!"unknown filter column: {column}"
  | unfilterable type => Text.quote s!"cannot filter on {type.name} columns"
  | integer fault => s!"ParseIntError \x7b kind: {fault.name} \x7d"
  | float true => "ParseFloatError \x7b kind: Empty \x7d"
  | float false => "ParseFloatError \x7b kind: Invalid \x7d"
  | boolean => "ParseBoolError"

end CommandLine

end ColumnQuery
