import ColumnQuery.Schema

/-! # Columns

A column is a list of cells of one supported type; its cells are nulls or values of exactly that
type. Building a column from scalars widens 32-bit integers into a 64-bit column and refuses other
values of a foreign type. Appending concatenates cells and needs equal types.
-/

namespace ColumnQuery

/-- Cells with a type that need not be one a column can hold, as a file or a client may offer. -/
structure RawColumn where
  type : DataType
  cells : List Scalar
  deriving DecidableEq, Repr

/-- A typed sequence of cells. -/
structure Column where
  type : DataType
  cells : List Scalar
  supported : type.isSupported = true
  typed : ∀ cell ∈ cells, cell.FitsIn type
  deriving DecidableEq

namespace Column

@[ext] theorem ext {left right : Column} (types : left.type = right.type)
    (cells : left.cells = right.cells) : left = right := by
  cases left
  cases right
  simp_all

def length (column : Column) : Nat := column.cells.length

/-- The cells that hold the given values in a column of type `type`, or the first value that none
can hold. -/
def placeAll (type : DataType) :
    List Scalar → Except Scalar { cells : List Scalar // ∀ cell ∈ cells, cell.FitsIn type }
  | [] => .ok ⟨[], by simp⟩
  | value :: rest =>
    match placed : value.place? type with
    | none => .error value
    | some cell =>
      match placeAll type rest with
      | .error refused => .error refused
      | .ok ⟨cells, typed⟩ =>
        .ok ⟨cell :: cells, by
          intro found isMember
          rcases List.mem_cons.mp isMember with same | later
          · exact same ▸ Scalar.fitsIn_of_place?_eq_some placed
          · exact typed found later⟩

def ofScalars (values : List Scalar) (type : DataType) : Except Error Column :=
  if supported : type.isSupported = true then
    match placeAll type values with
    | .ok ⟨cells, typed⟩ => .ok ⟨type, cells, supported, typed⟩
    | .error refused => .error (.misplacedValue refused type)
  else .error (.unsupportedElement type)

def ofRaw (raw : RawColumn) : Except Error Column := ofScalars raw.cells raw.type

def toRaw (column : Column) : RawColumn := ⟨column.type, column.cells⟩

/-- A column of Boolean cells. -/
def ofBooleans (cells : List Scalar) (typed : ∀ cell ∈ cells, cell.FitsIn .boolean) : Column :=
  ⟨.boolean, cells, rfl, typed⟩

theorem isSupported_of_type? {value : Scalar} {type : DataType} (known : value.type? = some type) :
    type.isSupported = true := by
  cases value <;> simp [Scalar.type?] at known <;> subst known <;> rfl

/-- Copies of one value. A null has no type and is refused. -/
def constant (value : Scalar) (count : Nat) : Except Error Column :=
  match known : value.type? with
  | none => .error .untypedConstant
  | some type =>
    .ok ⟨type, List.replicate count value, isSupported_of_type? known, by
      intro cell isMember
      exact .inr (by rw [List.eq_of_mem_replicate isMember, known])⟩

def value (column : Column) (row : Nat) : Except Error Scalar :=
  match column.cells[row]? with
  | some cell => .ok cell
  | none => .error (.rowOutOfBounds row column.length)

/-- The truth value in a cell of a Boolean column. -/
def truthOf : Scalar → Option Bool
  | .boolean b => some b
  | _ => none

/-- The cells of a Boolean column as truth values, null as none. -/
def asBoolean (column : Column) : Except Error (List (Option Bool)) :=
  if column.type = .boolean then .ok (column.cells.map truthOf)
  else .error (.notBoolean column.type)

/-- The cells of `other` after those of a column of the same type. -/
def append (column other : Column) : Except Error Column :=
  if same : other.type = column.type then
    .ok ⟨column.type, column.cells ++ other.cells, column.supported, by
      intro cell isMember
      rcases List.mem_append.mp isMember with own | added
      · exact column.typed cell own
      · exact same ▸ other.typed cell added⟩
  else .error (.appendMismatch other.type column.type)

/-- The text of a column: its cells between square brackets. -/
def text (column : Column) : String :=
  "[" ++ " ".intercalate (column.cells.map Scalar.text) ++ "]"

end Column

/-- The items whose mask entry is true; an entry without a truth value drops its item. -/
def keep {α : Type} : List (Option Bool) → List α → List α
  | some true :: mask, item :: items => item :: keep mask items
  | _ :: mask, _ :: items => keep mask items
  | _, _ => []

theorem mem_of_mem_keep {α : Type} {mask : List (Option Bool)} {items : List α} {item : α}
    (kept : item ∈ keep mask items) : item ∈ items := by
  fun_induction keep mask items with
  | case1 mask first rest ih =>
    rcases List.mem_cons.mp kept with same | later
    · exact same ▸ List.mem_cons_self
    · exact List.mem_cons_of_mem _ (ih later)
  | case2 entry mask first rest _ ih => exact List.mem_cons_of_mem _ (ih kept)
  | case3 => cases kept

def keptCount (mask : List (Option Bool)) : Nat := mask.countP (· == some true)

theorem length_keep {α : Type} {mask : List (Option Bool)} {items : List α}
    (sameLength : mask.length = items.length) : (keep mask items).length = keptCount mask := by
  induction mask generalizing items with
  | nil => rfl
  | cons entry mask ih =>
    cases items with
    | nil => cases sameLength
    | cons item items =>
      have rest := @ih items (by simpa using sameLength)
      rcases entry with _ | _ | _ <;> simp_all [keep, keptCount]

def Column.keepRows (column : Column) (mask : List (Option Bool)) : Column :=
  ⟨column.type, keep mask column.cells, column.supported,
    fun cell kept => column.typed cell (mem_of_mem_keep kept)⟩

end ColumnQuery
