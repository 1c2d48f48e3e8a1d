/-! # Column types

Every field of a schema names a data type. Five of them can be held by a column; the others are
known by name only, so that a schema that uses one can be described and refused.
-/

namespace ColumnQuery

inductive DataType where
  | boolean
  | int32
  | int64
  | float64
  | utf8
  | int8
  | int16
  | uint8
  | uint64
  | float32
  | largeUtf8
  | binary
  | date32
  | null
  | timestampNanoseconds
  deriving DecidableEq, Repr

namespace DataType

/-- The name of a type, as it stands in messages and schemas. -/
def name : DataType → String
  | boolean => "Boolean"
  | int32 => "Int32"
  | int64 => "Int64"
  | float64 => "Float64"
  | utf8 => "Utf8"
  | int8 => "Int8"
  | int16 => "Int16"
  | uint8 => "UInt8"
  | uint64 => "UInt64"
  | float32 => "Float32"
  | largeUtf8 => "LargeUtf8"
  | binary => "Binary"
  | date32 => "Date32"
  | null => "Null"
  | timestampNanoseconds => "Timestamp(Nanosecond, None)"

def all : List DataType :=
  [boolean, int32, int64, float64, utf8, int8, int16, uint8, uint64, float32, largeUtf8, binary,
    date32, null, timestampNanoseconds]

def ofName? (name : String) : Option DataType :=
  all.find? fun type => type.name == name

/-- The types whose values a column can hold. -/
def isSupported : DataType → Bool
  | boolean | int32 | int64 | float64 | utf8 => true
  | _ => false

/-- The types on which sums and averages are taken. -/
def isNumeric : DataType → Bool
  | int32 | int64 | float64 => true
  | _ => false

theorem isSupported_int64 : int64.isSupported = true := rfl

theorem isSupported_utf8 : utf8.isSupported = true := rfl

theorem isSupported_float64 : float64.isSupported = true := rfl

end DataType

end ColumnQuery
