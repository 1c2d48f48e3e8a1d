import ColumnQuery.Config.Json
import ColumnQuery.Source.StoredTable
import ColumnQuery.Text.Blank
import ColumnQuery.Text.Integer

/-! # Configuration

The only setting is the greatest number of rows in a batch read from a file. It comes from the
environment or from a JSON file, and must not be zero. The file holds an object, whose other members
are ignored, or an array of at most one element; where the setting is missing, the default stands.
-/

namespace ColumnQuery

structure EngineConfig where
  /-- The greatest number of rows in a batch read from a file. -/
  batchSize : Nat
  deriving DecidableEq, Repr

namespace EngineConfig

/-- The settings where nothing else is said. -/
def standard : EngineConfig := ⟨8192⟩

/-- The greatest number that the setting can hold. -/
def greatestSize : Nat := UInt64.size - 1

/-- The name of the setting in files. -/
def memberName : List Char := "batch_size_rows".toList

/-- Refuse settings that no session can use. -/
def validate (config : EngineConfig) : Except Error EngineConfig :=
  if config.batchSize = 0 then .error .zeroBatchSize else .ok config

/-- The settings with what the environment says. -/
def ofEnvironment (setting : Option String) : Except Error EngineConfig :=
  match setting with
  | none => standard.validate
  | some raw =>
    match Text.readInteger 0 greatestSize (Text.trim raw.toList) with
    | .ok size => validate ⟨size.toNat⟩
    | .error fault => .error (.batchSizeSetting raw fault)

/-- Read a number that the setting can hold. -/
def readSize (text : List Char) : Option (Nat × List Char) := do
  let (size, rest) ← Json.readNatural (Json.skipBlanks text)
  if size ≤ greatestSize then return (size, rest) else none

/-- Read the members of an object and its closing bracket, within a number of steps. The setting
may be given once. -/
def readMembers : Nat → Option Nat → List Char → Option (Option Nat × List Char)
  | 0, _, _ => none
  | steps + 1, found, text =>
    match Json.skipBlanks text with
    | '"' :: rest => do
      let (name, rest) ← Json.readText rest
      match Json.skipBlanks rest with
      | ':' :: rest =>
        let (found, rest) ←
          if name = memberName then
            match found with
            | some _ => none
            | none => (readSize rest).map fun (size, rest) => (some size, rest)
          else (Json.skipValue rest.length.succ rest).map fun rest => (found, rest)
        match Json.skipBlanks rest with
        | '\x7d' :: rest => return (found, rest)
        | ',' :: rest => readMembers steps found rest
        | _ => none
      | _ => none
    | _ => none

/-- Read the setting from a file of settings, which is an object or an array. -/
def readSetting (text : List Char) : Option (Option Nat × List Char) :=
  match Json.skipBlanks text with
  | '\x7b' :: rest =>
    match Json.skipBlanks rest with
    | '\x7d' :: rest => some (none, rest)
    | rest => readMembers rest.length.succ none rest
  | '[' :: rest =>
    match Json.skipBlanks rest with
    | ']' :: rest => some (none, rest)
    | rest => do
      let (size, rest) ← readSize rest
      match Json.skipBlanks rest with
      | ']' :: rest => return (some size, rest)
      | _ => none
  | _ => none

def ofText? (text : String) : Option EngineConfig := do
  let (setting, rest) ← readSetting text.toList
  if (Json.skipBlanks rest).isEmpty then return ⟨setting.getD standard.batchSize⟩ else none

def ofFile (path : String) : FileContent → Except Error EngineConfig
  | .unopened fault | .unread fault => .error (.configFileUnread fault)
  | .table _ | .binary _ => .error .configFileNotText
  | .text content _ =>
    match ofText? content with
    | some config => config.validate
    | none => .error (.configFileInvalid path)

end EngineConfig

end ColumnQuery
