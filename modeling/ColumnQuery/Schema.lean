import ColumnQuery.Error

/-! # Schemas

A schema is a list of named and typed fields. Names may repeat. Plans look a column up by its exact
name; a source that is asked for columns ignores the case of ASCII letters. Both take the first
field that matches.
-/

namespace ColumnQuery

structure Field where
  name : String
  type : DataType
  /-- Whether the column may hold nulls. -/
  nullable : Bool
  deriving DecidableEq, Repr

structure Schema where
  fields : List Field
  deriving DecidableEq, Repr

/-- Two names that differ at most in the case of ASCII letters. -/
def sameIgnoringCase (left right : String) : Bool :=
  left.map Char.toLower == right.map Char.toLower

namespace Schema

def types (schema : Schema) : List DataType := schema.fields.map (·.type)

def names (schema : Schema) : List String := schema.fields.map (·.name)

/-- The position of the first field of exactly this name. -/
def ordinalOf? (schema : Schema) (name : String) : Option Nat :=
  schema.fields.findIdx? fun field => field.name == name

/-- The first field of exactly this name. -/
def field? (schema : Schema) (name : String) : Option Field :=
  schema.fields.find? fun field => field.name == name

/-- The fields of the given names, in the order asked for. -/
def select (schema : Schema) (names : List String) : Except Error Schema := do
  let fields ← names.mapM fun name =>
    match schema.field? name with
    | some field => .ok field
    | none => .error (.columnNotInSchema name)
  return ⟨fields⟩

/-- The position of the first field of this name, ignoring the case of ASCII letters. -/
def sourceOrdinal? (schema : Schema) (name : String) : Option Nat :=
  schema.fields.findIdx? fun field => sameIgnoringCase field.name name

/-- The positions of the columns asked of a source, in the order asked for. -/
def resolve (schema : Schema) (names : List String) : Except Error (List Nat) :=
  names.mapM fun name =>
    match schema.sourceOrdinal? name with
    | some ordinal => .ok ordinal
    | none => .error (.projectedColumnMissing name)

/-- The fields at the given positions, in the order given. -/
def project (schema : Schema) (ordinals : List Nat) : Except Error Schema := do
  let fields ← ordinals.mapM fun ordinal =>
    match schema.fields[ordinal]? with
    | some field => .ok field
    | none => .error (.ordinalOutOfBounds ordinal schema.fields.length)
  return ⟨fields⟩

/-- Same names and types in the same order; whether nulls are allowed may differ. -/
def sameColumns (left right : Schema) : Bool :=
  left.names == right.names && left.types == right.types

end Schema

end ColumnQuery
