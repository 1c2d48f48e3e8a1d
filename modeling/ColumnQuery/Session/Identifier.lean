/-! # Identifiers

Sessions and queries are told apart by 64-bit numbers. A numbering issues them in ascending order,
starting at one.
-/

namespace ColumnQuery

/-- The number of a session or a query. -/
structure Identifier where
  number : UInt64
  deriving DecidableEq, Repr

def Identifier.text (identifier : Identifier) : String := toString identifier.number.toNat

/-- Where identifiers come from. -/
structure Numbering where
  /-- The identifier that is issued next. -/
  next : Identifier
  deriving DecidableEq, Repr

namespace Numbering

def start : Numbering := ⟨⟨1⟩⟩

def issue (numbering : Numbering) : Identifier × Numbering :=
  (numbering.next, ⟨⟨numbering.next.number + 1⟩⟩)

end Numbering

end ColumnQuery
