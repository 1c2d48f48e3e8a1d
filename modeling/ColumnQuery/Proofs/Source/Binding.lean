import ColumnQuery.Proofs.Schema.Resolution
import ColumnQuery.Source.StoredTable

/-! # Binding declared columns to a file

A declared field is bound to the first column of the file whose name differs from its own at most in
the case of ASCII letters. A file can be opened with a declared schema when each field is bound to a
column of its own type, and this is a type that columns can hold. A scan finds a declared field in
the same way as a declared field finds its column.
-/

namespace ColumnQuery

theorem sameIgnoringCase_eq_toList (left right : String) : sameIgnoringCase left right =
    (left.toList.map Char.toLower == right.toList.map Char.toLower) := by
  rw [sameIgnoringCase, Bool.eq_iff_iff, beq_iff_eq, beq_iff_eq, ← String.toList_inj,
    String.toList_map, String.toList_map]

namespace Schema

/-- The first field of a schema under a name, ignoring the case of ASCII letters. -/
structure FirstNamed (schema : Schema) (name : String) (position : Nat) (field : Field) : Prop where
  isField : schema.fields[position]? = some field
  named : sameIgnoringCase field.name name = true
  first : ∀ earlier < position, ∀ other, schema.fields[earlier]? = some other →
    sameIgnoringCase other.name name = false

/-- Each field is of a type that columns can hold, and of the type of the first column of a file
under its name. -/
def BindsTo (declared stored : Schema) : Prop :=
  ∀ field ∈ declared.fields, field.type.isSupported = true ∧
    ∃ ordinal column, stored.FirstNamed field.name ordinal column ∧ column.type = field.type

/-- The positions of the columns that a scan asks for: all, or the first under each name. -/
def Asks (schema : Schema) (projection : Option (List String)) (positions : List Nat) : Prop :=
  match projection with
  | none => positions = List.range schema.fields.length
  | some names => List.Forall₂ (fun name position => ∃ field, schema.FirstNamed name position field)
      names positions

/-- A scan asks for a name that no field has in any letters. -/
def Lacks (schema : Schema) (projection : Option (List String)) : Prop :=
  ∃ names, projection = some names ∧
    ∃ name ∈ names, ∀ field ∈ schema.fields, sameIgnoringCase field.name name = false

section Names

variable {schema : Schema} {name : String}

private theorem sourceOrdinal?_eq_some_iff {position : Nat} :
    schema.sourceOrdinal? name = some position ↔
      ∃ field, schema.FirstNamed name position field := by
  rw [sourceOrdinal?, List.findIdx?_eq_some_iff_getElem]
  constructor
  · rintro ⟨bound, named, first⟩
    refine ⟨_, List.getElem?_eq_getElem bound, named, fun earlier before other isOther => ?_⟩
    obtain ⟨_, rfl⟩ := List.getElem?_eq_some_iff.mp isOther
    exact Bool.eq_false_iff.mpr (first earlier before)
  · rintro ⟨field, isField, named, first⟩
    obtain ⟨bound, rfl⟩ := List.getElem?_eq_some_iff.mp isField
    exact ⟨bound, named, fun earlier before => Bool.eq_false_iff.mp
      (first earlier before _ (List.getElem?_eq_getElem (Nat.lt_trans before bound)))⟩

private theorem sourceOrdinal?_eq_none_iff : schema.sourceOrdinal? name = none ↔
    ∀ field ∈ schema.fields, sameIgnoringCase field.name name = false :=
  List.findIdx?_eq_none_iff

private theorem resolve_eq_ok_iff_forall₂ {names : List String} {positions : List Nat} :
    schema.resolve names = .ok positions ↔
      List.Forall₂ (fun name position => ∃ field, schema.FirstNamed name position field) names
        positions := by
  rw [resolve_eq_ok_iff, ← List.forall₂_eq_eq_eq, List.forall₂_map_left_iff,
    List.forall₂_map_right_iff]
  simp only [sourceOrdinal?_eq_some_iff]

end Names

end Schema

namespace FileTable

/-- What a file table is that has been opened with a declared schema. -/
structure Bound (path : String) (declared stored : Schema) (table : FileTable) : Prop where
  path : table.path = path
  schema : table.schema = declared
  supported : ∀ field ∈ declared.fields, field.type.isSupported = true
  ordinals : List.Forall₂ (fun field ordinal =>
      ∃ column, stored.FirstNamed field.name ordinal column ∧ column.type = field.type)
    declared.fields table.ordinals

private theorem checkSupported_eq_ok_iff {schema : Schema} :
    checkSupported schema = .ok () ↔ ∀ field ∈ schema.fields, field.type.isSupported = true := by
  unfold checkSupported
  split
  · rename_i field found
    have unsupported := List.find?_some found
    refine iff_of_false nofun fun supported => ?_
    simp [supported field (List.mem_of_find?_eq_some found)] at unsupported
  · rename_i none
    exact iff_of_true rfl (by simpa using List.find?_eq_none.mp none)

private theorem checkStored_eq_ok_iff {path : String} {field stored : Field} :
    checkStored path field stored = .ok () ↔ stored.type = field.type := by
  unfold checkStored
  split <;> simp_all

/-- The checks of the types of the columns that fields are bound to. -/
theorem forall₂_bound_iff {stored : Schema} {fields columns : List Field} {ordinals : List Nat}
    (found : List.Forall₂ (fun field ordinal => ∃ column,
      stored.FirstNamed field.name ordinal column) fields ordinals)
    (chosen : ordinals.map (stored.fields[·]?) = columns.map some) :
    (∀ pair ∈ fields.zip columns, pair.2.type = pair.1.type) ↔
      List.Forall₂ (fun field ordinal =>
          ∃ column, stored.FirstNamed field.name ordinal column ∧ column.type = field.type)
        fields ordinals := by
  induction found generalizing columns with
  | nil => simp
  | @cons field ordinal fields ordinals named _ ih =>
    cases columns with
    | nil => cases chosen
    | cons column columns =>
      obtain ⟨isColumn, others⟩ := List.cons.inj chosen
      obtain ⟨other, first⟩ := named
      obtain rfl : other = column := Option.some.inj (first.isField.symm.trans isColumn)
      have own : (∃ other, stored.FirstNamed field.name ordinal other ∧ other.type = field.type) ↔
          other.type = field.type := by
        constructor
        · rintro ⟨same, again, type⟩
          rwa [Option.some.inj (first.isField.symm.trans again.isField)]
        · exact fun type => ⟨other, first, type⟩
      rw [List.zip_cons_cons, List.forall_mem_cons, ih others, List.forall₂_cons, own]

theorem bind_eq_ok_iff_bound {path : String} {declared stored : Schema} {table : FileTable} :
    bind path declared stored = .ok table ↔ table.Bound path declared stored := by
  constructor
  · intro success
    obtain ⟨supported, success⟩ := check_bind_eq_ok_iff.mp success
    obtain ⟨ordinals, resolved, success⟩ := bind_eq_ok_iff.mp success
    obtain ⟨⟨columns⟩, chosen, success⟩ := bind_eq_ok_iff.mp success
    obtain ⟨typed, same⟩ := check_bind_eq_ok_iff.mp success
    cases same
    have found := List.forall₂_map_left_iff.mp (Schema.resolve_eq_ok_iff_forall₂.mp resolved)
    have chosen := Schema.project_eq_ok_iff.mp chosen
    have types := (forall₂_bound_iff found chosen).mp fun pair isPair =>
      checkStored_eq_ok_iff.mp (forM_eq_ok_iff.mp typed pair isPair)
    exact ⟨rfl, rfl, checkSupported_eq_ok_iff.mp supported, types⟩
  · rintro ⟨rfl, rfl, supported, bound⟩
    have found := bound.imp fun _ _ => Exists.imp fun _ both => both.1
    have resolved := Schema.resolve_eq_ok_iff_forall₂.mpr (List.forall₂_map_left_iff.mpr found)
    have present (ordinal : Nat) (isMember : ordinal ∈ table.ordinals) :
        stored.fields[ordinal]?.isSome := by
      obtain ⟨field, -, column, first⟩ := exists_of_mem_forall₂ found isMember
      exact Option.isSome_iff_exists.mpr ⟨column, first.isField⟩
    obtain ⟨columns, chosen⟩ := exists_map_some present
    have types := (forall₂_bound_iff found chosen).mpr bound
    have typed := forM_eq_ok_iff.mpr fun pair isPair =>
      (checkStored_eq_ok_iff.mpr (types pair isPair) : checkStored table.path _ _ = _)
    exact check_bind_eq_ok_iff.mpr ⟨checkSupported_eq_ok_iff.mpr supported,
      bind_eq_ok_iff.mpr ⟨_, resolved, bind_eq_ok_iff.mpr ⟨⟨columns⟩,
        Schema.project_eq_ok_iff.mpr chosen, check_bind_eq_ok_iff.mpr ⟨typed, rfl⟩⟩⟩⟩

theorem openAt_table {path : String} {declared : Option Schema} {stored : StoredTable} :
    openAt path declared (.table stored) =
      bind path (declared.getD stored.schema) stored.schema := rfl

/-- A file is opened when each declared field is bound to a column of its type. -/
theorem exists_bound_iff {path : String} {declared stored : Schema} :
    (∃ table, Bound path declared stored table) ↔ declared.BindsTo stored := by
  constructor
  · rintro ⟨table, bound⟩ field isField
    obtain ⟨position, isPosition⟩ := List.mem_iff_getElem?.mp isField
    refine ⟨bound.supported field isField, ?_⟩
    obtain ⟨ordinal, -, bound⟩ := exists_of_mem_forall₂ bound.ordinals.flip isField
    exact ⟨ordinal, bound⟩
  · intro binds
    obtain ⟨ordinals, found⟩ := exists_forall₂ fun field isField => (binds field isField).2
    have supported := fun field isField => (binds field isField).1
    exact ⟨⟨path, declared, ordinals⟩, rfl, rfl, supported, found⟩

theorem positions_eq_ok_iff {table : FileTable} {projection : Option (List String)}
    {positions : List Nat} :
    table.positions projection = .ok positions ↔ table.schema.Asks projection positions := by
  cases projection with
  | none => exact ⟨fun same => (Except.ok.inj same).symm, fun same => congrArg Except.ok same.symm⟩
  | some names => exact Schema.resolve_eq_ok_iff_forall₂

theorem exists_positions_iff {table : FileTable} {projection : Option (List String)} :
    (∃ positions, table.positions projection = .ok positions) ↔ ¬table.schema.Lacks projection := by
  cases projection with
  | none => exact iff_of_true ⟨_, rfl⟩ (by rintro ⟨_, ⟨⟩, _⟩)
  | some names =>
    simp only [positions, Schema.resolve_eq_ok_iff]
    constructor
    · rintro ⟨positions, found⟩ ⟨_, ⟨⟩, name, isMember, missing⟩
      have isFound := isSome_of_map_some found name isMember
      rw [Schema.sourceOrdinal?_eq_none_iff.mpr missing] at isFound
      cases isFound
    · intro known
      refine exists_map_some fun name isMember => ?_
      rw [Option.isSome_iff_ne_none, Ne, Schema.sourceOrdinal?_eq_none_iff]
      exact fun missing => known ⟨names, rfl, name, isMember, missing⟩

end FileTable

end ColumnQuery
