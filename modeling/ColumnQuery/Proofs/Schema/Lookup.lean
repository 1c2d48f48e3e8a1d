import ColumnQuery.Expr.Meaning
import ColumnQuery.Proofs.Traversal

/-! # Columns by name

Looking a name up gives the first field of that name, whether it is asked for by position or as a
field. A selection of columns finds each selected name again, and a selected row holds under it the
cell that the whole row held.
-/

namespace ColumnQuery.Schema

theorem field?_eq_bind (schema : Schema) (name : String) :
    schema.field? name = (schema.ordinalOf? name).bind (schema.fields[·]?) := by
  obtain ⟨fields⟩ := schema
  induction fields with
  | nil => rfl
  | cons field fields ih =>
    simp only [field?, ordinalOf?, List.find?_cons, List.findIdx?_cons] at ih ⊢
    by_cases same : field.name = name
    · simp [same]
    · have other : (field.name == name) = false := by simpa using same
      rw [other, ih]
      cases fields.findIdx? fun field => field.name == name <;> simp

theorem name_of_field? {schema : Schema} {name : String} {field : Field}
    (found : schema.field? name = some field) : field.name = name := by
  simpa using List.find?_some found

theorem ordinalOf?_of_field? {schema : Schema} {name : String} {field : Field}
    (found : schema.field? name = some field) :
    ∃ ordinal, schema.ordinalOf? name = some ordinal ∧ schema.fields[ordinal]? = some field := by
  rw [field?_eq_bind] at found
  exact Option.bind_eq_some_iff.mp found

private theorem isSome_field? (schema : Schema) (name : String) :
    (schema.field? name).isSome = (schema.ordinalOf? name).isSome := by
  cases found : schema.ordinalOf? name with
  | none => simp [field?_eq_bind, found]
  | some ordinal =>
    have bound := (List.findIdx?_eq_some_iff_getElem.mp found).1
    simp [field?_eq_bind, found, List.getElem?_eq_getElem bound]

theorem select_eq_ok_iff {schema selected : Schema} {names : List String} :
    schema.select names = .ok selected ↔ names.map schema.field? = selected.fields.map some := by
  unfold select
  rw [bind_eq_ok_iff]
  constructor
  · rintro ⟨fields, success, same⟩
    cases same
    refine (mapM_eq_ok_iff_of_find (fun name field => ?_)).mp success
    split <;> simp_all
  · intro found
    refine ⟨selected.fields, (mapM_eq_ok_iff_of_find (fun name field => ?_)).mpr found, rfl⟩
    split <;> simp_all

/-- A selection consists of the fields at the positions of its names. -/
theorem positions_of_select {schema selected : Schema} {names : List String}
    (accepted : schema.select names = .ok selected) :
    ∃ positions : List Nat, names.map schema.ordinalOf? = positions.map some ∧
      positions.map (schema.fields[·]?) = selected.fields.map some := by
  have found := select_eq_ok_iff.mp accepted
  have lookup : names.map schema.field? =
      (names.map schema.ordinalOf?).map (·.bind (schema.fields[·]?)) := by
    rw [List.map_map]
    exact List.map_congr_left fun name _ => field?_eq_bind schema name
  obtain ⟨positions, same⟩ := exists_map_some fun name isMember =>
    isSome_field? schema name ▸ isSome_of_map_some found name isMember
  refine ⟨positions, same, ?_⟩
  rw [← found, lookup, same, List.map_map]
  rfl

theorem types_of_positions {schema selected : Schema} {positions : List Nat}
    (fields : positions.map (schema.fields[·]?) = selected.fields.map some) :
    positions.map (schema.types[·]?) = selected.types.map some := by
  have := congrArg (List.map (Option.map Field.type)) fields
  simpa [types, Function.comp_def] using this

private theorem map_name_of_found {schema : Schema} {names : List String} {fields : List Field}
    (found : names.map schema.field? = fields.map some) : fields.map (·.name) = names := by
  induction names generalizing fields with
  | nil => cases fields <;> simp_all
  | cons name names ih =>
    cases fields with
    | nil => cases found
    | cons field fields =>
      obtain ⟨first, rest⟩ := List.cons.inj found
      rw [List.map_cons, name_of_field? first, ih rest]

theorem names_of_select {schema selected : Schema} {names : List String}
    (accepted : schema.select names = .ok selected) : selected.names = names :=
  map_name_of_found (select_eq_ok_iff.mp accepted)

/-- A name that is not found stands for null. -/
theorem cellOf_of_not_found {schema : Schema} {name : String} (missing : schema.field? name = none)
    (row : Row) : schema.cellOf row name = .null := by
  have position : schema.ordinalOf? name = none := by
    rw [← Option.isNone_iff_eq_none, ← Option.isSome_eq_false_iff, ← isSome_field?, missing]
    rfl
  simp only [cellOf, position]

@[simp] theorem cellOf_cons (field : Field) (fields : List Field) (cell : Scalar) (row : Row)
    (name : String) :
    (⟨field :: fields⟩ : Schema).cellOf (cell :: row) name =
      if field.name = name then cell else (⟨fields⟩ : Schema).cellOf row name := by
  simp only [cellOf, ordinalOf?, List.findIdx?_cons, beq_iff_eq]
  by_cases same : field.name = name
  · simp [same]
  · cases fields.findIdx? fun field => field.name == name <;> simp [same]

/-- A name that is found among the first fields is found there, and so is its cell. -/
theorem find_append {front : List Field} {name : String} {field : Field}
    (found : (⟨front⟩ : Schema).field? name = some field) (back : List Field) :
    (⟨front ++ back⟩ : Schema).field? name = some field ∧
      ∀ row rest : Row, row.length = front.length →
        (⟨front ++ back⟩ : Schema).cellOf (row ++ rest) name =
          (⟨front⟩ : Schema).cellOf row name := by
  constructor
  · rw [field?, List.find?_append, ← field?, found]
    rfl
  · intro row rest length
    induction front generalizing row with
    | nil => cases found
    | cons first front ih =>
      obtain ⟨cell, row, rfl⟩ := List.exists_cons_of_length_eq_add_one length
      rw [List.cons_append, List.cons_append, cellOf_cons, cellOf_cons]
      by_cases same : first.name = name
      · rw [if_pos same, if_pos same]
      · have other : (first.name == name) = false := by simpa using same
        rw [field?, List.find?_cons, other] at found
        rw [if_neg same, if_neg same, ih found row (Nat.succ.inj length)]

section Selection

variable {schema : Schema} {names : List String} {fields : List Field}

/-- A selection finds the fields of the selected names and no others. -/
theorem field?_select (found : names.map schema.field? = fields.map some) (name : String) :
    (⟨fields⟩ : Schema).field? name = if name ∈ names then schema.field? name else none := by
  induction names generalizing fields with
  | nil => cases fields <;> simp_all [field?]
  | cons first names ih =>
    cases fields with
    | nil => cases found
    | cons field fields =>
      obtain ⟨head, tail⟩ := List.cons.inj found
      have named := name_of_field? head
      have rest := ih tail
      simp only [field?, List.find?_cons] at rest ⊢
      by_cases same : first = name
      · subst same
        simp [named, ← head, field?]
      · have other : (field.name == name) = false := by simpa [named] using same
        rw [other, rest]
        simp [Ne.symm same]

/-- A row that holds a cell for each selected name has that cell under the name. -/
theorem cellOf_select (found : names.map schema.field? = fields.map some) (cells : String → Scalar)
    {name : String} (selected : name ∈ names) :
    (⟨fields⟩ : Schema).cellOf (names.map cells) name = cells name := by
  induction names generalizing fields with
  | nil => cases selected
  | cons first names ih =>
    cases fields with
    | nil => cases found
    | cons field fields =>
      obtain ⟨head, tail⟩ := List.cons.inj found
      rw [List.map_cons, cellOf_cons, name_of_field? head]
      split
      · rename_i same
        rw [same]
      · rename_i other
        rcases List.mem_cons.mp selected with same | later
        · exact absurd same.symm other
        · exact ih tail later

end Selection

end ColumnQuery.Schema
