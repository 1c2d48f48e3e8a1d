/-! # Options of the command line

The words of a command line are read from the left into settings: a path, a flag with the word
after it as its value, or a flag by itself. The word after a flag is its value whatever it looks
like. A later setting of a flag replaces an earlier one; there is one path.
-/

namespace ColumnQuery.CommandLine

/-- A flag that takes a value. -/
inductive ValueFlag where
  | filter
  | groupBy
  | sum
  | config
  deriving DecidableEq, Repr

namespace ValueFlag

def word : ValueFlag → String
  | filter => "--filter-eq"
  | groupBy => "--group-by"
  | sum => "--sum"
  | config => "--config"

def all : List ValueFlag := [filter, groupBy, sum, config]

def ofWord? (word : String) : Option ValueFlag := all.find? fun flag => flag.word == word

end ValueFlag

/-- The word for the flag that takes no value. -/
def explainWord : String := "--explain"

/-- Whether a word looks like a flag. -/
def isFlag (word : String) : Bool := ['-', '-'].isPrefixOf word.toList

/-- Why the words are no options. -/
inductive UsageError where
  | missingValue (flag : ValueFlag)
  | filterWithoutEquals
  | unknownFlag (word : String)
  | extraPath (path : String)
  | missingPath
  | groupByWithoutSum
  deriving DecidableEq, Repr

def UsageError.text : UsageError → String
  | missingValue flag => s!"missing value for {flag.word}"
  | filterWithoutEquals => "--filter-eq expects col=value"
  | unknownFlag word => s!"unknown argument: {word}"
  | extraPath path => s!"unexpected extra path: {path}"
  | missingPath => "missing parquet file path"
  | groupByWithoutSum => "--group-by requires --sum"

/-- One setting on a command line. -/
inductive Setting where
  | path (file : String)
  | filter (column value : String)
  | groupBy (column : String)
  | sum (column : String)
  | config (file : String)
  | explain
  deriving DecidableEq, Repr

def Setting.words : Setting → List String
  | path file => [file]
  | filter column value => [ValueFlag.filter.word, column ++ "=" ++ value]
  | groupBy column => [ValueFlag.groupBy.word, column]
  | sum column => [ValueFlag.sum.word, column]
  | config file => [ValueFlag.config.word, file]
  | explain => [explainWord]

/-- The texts before and after the first `=`. -/
def cutAtEquals (text : String) : Option (String × String) :=
  match text.toList.span (· ≠ '=') with
  | (before, _ :: after) => some (String.ofList before, String.ofList after)
  | (_, []) => none

/-- The setting that a flag makes with a value. -/
def ValueFlag.setting (flag : ValueFlag) (value : String) : Except UsageError Setting :=
  match flag with
  | filter =>
    match cutAtEquals value with
    | some (column, value) => .ok (.filter column value)
    | none => .error .filterWithoutEquals
  | groupBy => .ok (.groupBy value)
  | sum => .ok (.sum value)
  | config => .ok (.config value)

/-- What a query is asked to do. -/
structure QueryOptions where
  path : String
  /-- Keep the rows in which a column has a value, given as text. -/
  filter : Option (String × String)
  groupBy : Option String
  sum : Option String
  explain : Bool
  /-- The path of a file of settings. -/
  config : Option String
  deriving DecidableEq, Repr

namespace QueryOptions

/-- The options before the first word. -/
def none : QueryOptions := ⟨"", .none, .none, .none, false, .none⟩

/-- The options with one more setting. A path is only taken where there is none yet. -/
def apply (options : QueryOptions) : Setting → Except UsageError QueryOptions
  | .path file =>
    if options.path = "" then .ok { options with path := file } else .error (.extraPath file)
  | .filter column value => .ok { options with filter := some (column, value) }
  | .groupBy column => .ok { options with groupBy := some column }
  | .sum column => .ok { options with sum := some column }
  | .config file => .ok { options with config := some file }
  | .explain => .ok { options with explain := true }

/-- Read words into options. -/
def readFrom (options : QueryOptions) : List String → Except UsageError QueryOptions
  | [] => .ok options
  | word :: rest =>
    match ValueFlag.ofWord? word with
    | some flag =>
      match rest with
      | [] => .error (.missingValue flag)
      | value :: rest => do
        let options ← options.apply (← flag.setting value)
        options.readFrom rest
    | .none =>
      if word = explainWord then do
        let options ← options.apply .explain
        options.readFrom rest
      else if isFlag word then .error (.unknownFlag word)
      else do
        let options ← options.apply (.path word)
        options.readFrom rest

/-- Refuse options that describe no query. -/
def check (options : QueryOptions) : Except UsageError QueryOptions :=
  if options.path = "" then .error .missingPath
  else if options.groupBy.isSome && options.sum.isNone then .error .groupByWithoutSum
  else .ok options

/-- The options that the words of a command line give. -/
def parse (words : List String) : Except UsageError QueryOptions := do
  (← none.readFrom words).check

end QueryOptions

end ColumnQuery.CommandLine
