import ColumnQuery.Proofs.Schema.Lookup

/-! # Exact names and names asked of a source

A plan looks names up exactly and a source ignores the case of ASCII letters. Whatever is found
exactly is found by the source as well, but it is the same column only if no earlier column has the
name in other letters.
-/

namespace ColumnQuery.Schema

variable {schema : Schema}

private theorem sameIgnoringCase_self (name : String) : sameIgnoringCase name name = true := by
  simp [sameIgnoringCase]

private theorem name_of_ordinalOf? {name : String} {ordinal : Nat}
    (found : schema.ordinalOf? name = some ordinal) :
    ∃ field, schema.fields[ordinal]? = some field ∧ field.name = name := by
  obtain ⟨bound, same, -⟩ := List.findIdx?_eq_some_iff_getElem.mp found
  exact ⟨_, List.getElem?_eq_getElem bound, by simpa using same⟩

/-- A source finds the exact column of a name just when the column it finds bears that name. -/
theorem sourceOrdinal?_eq_ordinalOf?_iff {name : String} {ordinal : Nat} {field : Field}
    (found : schema.sourceOrdinal? name = some ordinal)
    (isField : schema.fields[ordinal]? = some field) :
    schema.sourceOrdinal? name = schema.ordinalOf? name ↔ field.name = name := by
  obtain ⟨bound, -, before⟩ := List.findIdx?_eq_some_iff_getElem.mp found
  obtain ⟨_, same⟩ := List.getElem?_eq_some_iff.mp isField
  constructor
  · intro same
    obtain ⟨other, otherField, named⟩ := name_of_ordinalOf? (same.symm.trans found)
    rw [isField] at otherField
    exact Option.some.inj otherField ▸ named
  · intro named
    rw [found]
    symm
    refine List.findIdx?_eq_some_iff_getElem.mpr
      ⟨bound, by simpa [same] using named, fun other earlier exactly => ?_⟩
    have differs := before other earlier
    rw [beq_iff_eq.mp exactly] at differs
    exact differs (sameIgnoringCase_self name)

/-- The column that a source finds under a name is what it finds under the name of that column. -/
theorem sourceOrdinal?_name {name : String} {ordinal : Nat} {field : Field}
    (found : schema.sourceOrdinal? name = some ordinal)
    (isField : schema.fields[ordinal]? = some field) :
    schema.sourceOrdinal? field.name = some ordinal := by
  obtain ⟨_, same, _⟩ := List.findIdx?_eq_some_iff_getElem.mp found
  obtain ⟨_, rfl⟩ := List.getElem?_eq_some_iff.mp isField
  have letters := beq_iff_eq.mp same
  rw [← found, sourceOrdinal?, sourceOrdinal?]
  simp only [sameIgnoringCase, letters]

theorem resolve_eq_ok_iff {names : List String} {ordinals : List Nat} :
    schema.resolve names = .ok ordinals ↔
      names.map schema.sourceOrdinal? = ordinals.map some := by
  apply mapM_eq_ok_iff_of_find
  intro name ordinal
  split <;> simp_all

theorem project_eq_ok_iff {projected : Schema} {ordinals : List Nat} :
    schema.project ordinals = .ok projected ↔
      ordinals.map (schema.fields[·]?) = projected.fields.map some := by
  unfold project
  rw [bind_eq_ok_iff]
  constructor
  · rintro ⟨fields, success, same⟩
    cases same
    refine (mapM_eq_ok_iff_of_find (fun ordinal field => ?_)).mp success
    split <;> simp_all
  · intro found
    refine ⟨projected.fields, (mapM_eq_ok_iff_of_find (fun ordinal field => ?_)).mpr found, rfl⟩
    split <;> simp_all

end ColumnQuery.Schema
