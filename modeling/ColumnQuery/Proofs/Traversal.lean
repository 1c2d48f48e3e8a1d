import ColumnQuery.Error
import Mathlib.Data.List.Forall2
import Mathlib.Data.List.Perm.Basic

/-! # Computations that may fail

A computation succeeds exactly when each of its parts does, so that a traversal of a list succeeds
with pointwise results. A traversal whose parts fail with one error only fails with that error.
-/

namespace ColumnQuery

variable {α β γ ε : Type}

theorem bind_eq_ok_iff {first : Except ε α} {next : α → Except ε β} {result : β} :
    first >>= next = .ok result ↔ ∃ value, first = .ok value ∧ next value = .ok result := by
  cases first <;> simp [bind, Except.bind]

/-- A check comes before what it guards. -/
theorem check_bind_eq_ok_iff {check : Except ε Unit} {next : Unit → Except ε β} {result : β} :
    check >>= next = .ok result ↔ check = .ok () ∧ next () = .ok result := by
  cases check <;> simp [bind, Except.bind]

theorem bind_eq_error_iff {first : Except ε α} {next : α → Except ε β} {error : ε} :
    first >>= next = .error error ↔
      first = .error error ∨ ∃ value, first = .ok value ∧ next value = .error error := by
  cases first <;> simp [bind, Except.bind]

theorem map_eq_ok_iff {first : Except ε α} {change : α → β} {result : β} :
    first.map change = .ok result ↔ ∃ value, first = .ok value ∧ change value = result := by
  cases first <;> simp [Except.map]

theorem map_injective {change : α → β} (injective : Function.Injective change) :
    Function.Injective (Except.map change : Except ε α → Except ε β) := by
  intro first second same
  cases first <;> cases second <;> simp_all [Except.map, injective.eq_iff]

@[simp] theorem ok_bind (value : α) (next : α → Except ε β) :
    (Except.ok value >>= next) = next value := rfl

@[simp] theorem error_bind (error : ε) (next : α → Except ε β) :
    (Except.error error >>= next) = .error error := rfl

@[simp] theorem pure_eq_ok (value : α) : (pure value : Except ε α) = .ok value := rfl

/-- A check whose value is not used. -/
theorem discard_bind (first : Except ε α) (next : Unit → Except ε β) :
    (discard first >>= next) = (first >>= fun _ => next ()) := by
  cases first <;> rfl

theorem discard_eq_ok_iff {first : Except ε α} :
    discard first = .ok () ↔ ∃ value, first = .ok value := by
  cases first <;> simp [discard, Functor.discard, Functor.mapConst, Except.map]

theorem mapM_cons_eq_ok_iff {f : α → Except ε β} {item : α} {items : List α} {results : List β} :
    (item :: items).mapM f = .ok results ↔
      ∃ result others, f item = .ok result ∧ items.mapM f = .ok others ∧
        result :: others = results := by
  simp only [List.mapM_cons, bind_eq_ok_iff, pure_eq_ok, Except.ok.injEq]
  constructor
  · rintro ⟨result, first, others, rest, same⟩
    exact ⟨result, others, first, rest, same⟩
  · rintro ⟨result, others, first, rest, same⟩
    exact ⟨result, first, others, rest, same⟩

theorem mapM_eq_ok_iff {f : α → Except ε β} {items : List α} {results : List β} :
    items.mapM f = .ok results ↔ items.map f = results.map .ok := by
  induction items generalizing results with
  | nil => cases results <;> simp
  | cons item items ih =>
    rw [mapM_cons_eq_ok_iff]
    constructor
    · rintro ⟨result, others, first, rest, rfl⟩
      rw [List.map_cons, first, ih.mp rest, List.map_cons]
    · intro same
      cases results with
      | nil => cases same
      | cons result results =>
        obtain ⟨first, rest⟩ := List.cons.inj same
        exact ⟨result, results, first, ih.mpr rest, rfl⟩

theorem mapM_ok (f : α → β) (items : List α) :
    (items.mapM fun item => (.ok (f item) : Except ε β)) = .ok (items.map f) :=
  mapM_eq_ok_iff.mpr (by rw [List.map_map]; rfl)

/-- A change made to each result. -/
theorem mapM_change {f : α → Except ε β} {items : List α} {results : List β} (change : β → γ)
    (success : items.mapM f = .ok results) :
    (items.mapM fun item => do return change (← f item)) = .ok (results.map change) := by
  rw [mapM_eq_ok_iff] at success ⊢
  have changed := congrArg (List.map fun result => result.map change) success
  rw [List.map_map, List.map_map] at changed
  rw [List.map_map]
  refine Eq.trans (List.map_congr_left fun item _ => ?_) changed
  rw [Function.comp_apply]
  cases f item <;> rfl

theorem mapM_congr {f g : α → Except ε β} {items : List α}
    (same : ∀ item ∈ items, f item = g item) : items.mapM f = items.mapM g := by
  induction items with
  | nil => rfl
  | cons item items ih =>
    rw [List.mapM_cons, List.mapM_cons, same item List.mem_cons_self,
      ih fun other isMember => same other (List.mem_cons_of_mem _ isMember)]

theorem length_of_mapM {f : α → Except ε β} {items : List α} {results : List β}
    (success : items.mapM f = .ok results) : results.length = items.length := by
  have := congrArg List.length (mapM_eq_ok_iff.mp success)
  simpa using this.symm

/-- A traversal that looks each item up. -/
theorem mapM_eq_ok_iff_of_find {f : α → Except ε β} {find : α → Option β}
    (looks : ∀ item result, f item = .ok result ↔ find item = some result) {items : List α}
    {results : List β} : items.mapM f = .ok results ↔ items.map find = results.map some := by
  rw [mapM_eq_ok_iff]
  induction items generalizing results with
  | nil => cases results <;> simp
  | cons item items ih =>
    cases results with
    | nil => simp
    | cons result results => simp only [List.map_cons, List.cons.injEq, ih, looks]

/-- Items that are all found have results. -/
theorem exists_map_some {find : α → Option β} {items : List α}
    (found : ∀ item ∈ items, (find item).isSome) :
    ∃ results : List β, items.map find = results.map some := by
  induction items with
  | nil => exact ⟨[], rfl⟩
  | cons item items ih =>
    obtain ⟨result, first⟩ := Option.isSome_iff_exists.mp (found item List.mem_cons_self)
    obtain ⟨results, rest⟩ := ih fun other isMember => found other (List.mem_cons_of_mem _ isMember)
    exact ⟨result :: results, by rw [List.map_cons, List.map_cons, first, rest]⟩

theorem isSome_of_map_some {find : α → Option β} {items : List α} {results : List β}
    (found : items.map find = results.map some) : ∀ item ∈ items, (find item).isSome := by
  intro item isMember
  have : find item ∈ results.map some := found ▸ List.mem_map_of_mem isMember
  obtain ⟨result, -, same⟩ := List.mem_map.mp this
  simp [← same]

theorem map_some_inj {left right : List α} : left.map some = right.map some ↔ left = right :=
  List.map_inj_right fun _ _ => Option.some.inj

theorem map_getElem?_range (items : List α) :
    (List.range items.length).map (items[·]?) = items.map some := by
  apply List.ext_getElem?
  intro index
  by_cases bound : index < items.length <;> simp [bound]

/-- Each result of a successful traversal is the result of an item. -/
theorem exists_of_mem_mapM {f : α → Except ε β} {items : List α} {results : List β}
    (success : items.mapM f = .ok results) {result : β} (isMember : result ∈ results) :
    ∃ item ∈ items, f item = .ok result := by
  have found : Except.ok result ∈ items.map f := by
    rw [mapM_eq_ok_iff.mp success]
    exact List.mem_map_of_mem isMember
  exact List.mem_map.mp found

/-- Each item of a successful traversal has a result. -/
theorem exists_result_of_mapM {f : α → Except ε β} {items : List α} {results : List β}
    (success : items.mapM f = .ok results) {item : α} (isMember : item ∈ items) :
    ∃ result ∈ results, f item = .ok result := by
  have found : f item ∈ results.map Except.ok := by
    rw [← mapM_eq_ok_iff.mp success]
    exact List.mem_map_of_mem isMember
  obtain ⟨result, isResult, same⟩ := List.mem_map.mp found
  exact ⟨result, isResult, same.symm⟩

theorem exists_forall₂ {P : α → β → Prop} {items : List α}
    (each : ∀ item ∈ items, ∃ result, P item result) : ∃ results, List.Forall₂ P items results := by
  induction items with
  | nil => exact ⟨[], .nil⟩
  | cons item items ih =>
    obtain ⟨result, first⟩ := each item List.mem_cons_self
    obtain ⟨results, rest⟩ := ih fun other isMember => each other (List.mem_cons_of_mem _ isMember)
    exact ⟨result :: results, .cons first rest⟩

theorem exists_of_mem_forall₂ {P : α → β → Prop} {items : List α} {results : List β}
    (each : List.Forall₂ P items results) {result : β} (isMember : result ∈ results) :
    ∃ item ∈ items, P item result := by
  induction each with
  | nil => cases isMember
  | cons first _ ih =>
    rcases List.mem_cons.mp isMember with rfl | later
    · exact ⟨_, List.mem_cons_self, first⟩
    · obtain ⟨item, isItem, holds⟩ := ih later
      exact ⟨item, List.mem_cons_of_mem _ isItem, holds⟩

theorem exists_getElem?_of_forall₂ {P : α → β → Prop} {items : List α} {results : List β}
    (each : List.Forall₂ P items results) {index : Nat} {item : α}
    (isItem : items[index]? = some item) :
    ∃ result, results[index]? = some result ∧ P item result := by
  induction each generalizing index with
  | nil => cases isItem
  | cons first _ ih =>
    cases index with
    | zero =>
      cases isItem
      exact ⟨_, rfl, first⟩
    | succ index => exact ih isItem

theorem map_eq_map_of_forall₂ {left : α → γ} {right : β → γ} {items : List α} {results : List β}
    (each : List.Forall₂ (fun item result => left item = right result) items results) :
    items.map left = results.map right := by
  induction each with
  | nil => rfl
  | cons first _ ih => rw [List.map_cons, List.map_cons, first, ih]

theorem forall₂_of_map_eq_map {left : α → γ} {right : β → γ} {items : List α} {results : List β}
    (same : items.map left = results.map right) :
    List.Forall₂ (fun item result => left item = right result) items results := by
  rw [← List.forall₂_eq_eq_eq, List.forall₂_map_left_iff, List.forall₂_map_right_iff] at same
  exact same

theorem mapM_eq_ok_iff_forall₂ {f : α → Except ε β} {items : List α} {results : List β} :
    items.mapM f = .ok results ↔
      List.Forall₂ (fun item result => f item = .ok result) items results :=
  mapM_eq_ok_iff.trans ⟨forall₂_of_map_eq_map, map_eq_map_of_forall₂⟩

theorem forall₂_of_mapM {f : α → Except ε β} {items : List α} {results : List β}
    (success : items.mapM f = .ok results) :
    List.Forall₂ (fun item result => f item = .ok result) items results :=
  mapM_eq_ok_iff_forall₂.mp success

theorem forall₂_comp {P : α → β → Prop} {Q : β → γ → Prop} {R : α → γ → Prop}
    (both : ∀ first second third, P first second → Q second third → R first third)
    {firsts : List α} {seconds : List β} {thirds : List γ} (front : List.Forall₂ P firsts seconds)
    (back : List.Forall₂ Q seconds thirds) : List.Forall₂ R firsts thirds := by
  induction front generalizing thirds with
  | nil =>
    cases back
    exact .nil
  | cons first _ ih =>
    cases back with
    | cons second later => exact .cons (both _ _ _ first second) (ih later)

/-- A traversal of items that all succeed. -/
theorem exists_mapM {f : α → Except ε β} {P : α → β → Prop} {items : List α}
    (succeeds : ∀ item ∈ items, ∃ result, f item = .ok result ∧ P item result) :
    ∃ results, items.mapM f = .ok results ∧ List.Forall₂ P items results := by
  obtain ⟨results, each⟩ := exists_forall₂ succeeds
  have success := map_eq_map_of_forall₂ (each.imp fun _ _ both => both.1)
  exact ⟨results, mapM_eq_ok_iff.mpr success, each.imp fun _ _ both => both.2⟩

/-- Items in another order have their results in another order. -/
theorem perm_of_mapM {f : α → Except ε β} {items others : List α} {results otherResults : List β}
    (same : items.Perm others) (success : items.mapM f = .ok results)
    (otherSuccess : others.mapM f = .ok otherResults) : results.Perm otherResults := by
  rw [mapM_eq_ok_iff] at success otherSuccess
  refine (List.map_perm_map_iff (f := (Except.ok : β → Except ε β)) fun _ _ => Except.ok.inj).mp ?_
  rw [← success, ← otherSuccess]
  exact same.map f

/-- Items are chosen before a traversal or their results after it. -/
theorem mapM_filter {f : α → Except ε β} {choose : α → Bool} {chooseResult : β → Bool}
    {items : List α} {results : List β} (success : items.mapM f = .ok results)
    (same : ∀ item ∈ items, ∀ result, f item = .ok result → chooseResult result = choose item) :
    (items.filter choose).mapM f = .ok (results.filter chooseResult) := by
  induction items generalizing results with
  | nil =>
    cases success
    rfl
  | cons item items ih =>
    obtain ⟨result, others, first, rest, rfl⟩ := mapM_cons_eq_ok_iff.mp success
    rw [List.forall_mem_cons] at same
    have chosen := ih rest same.2
    rw [List.filter_cons, List.filter_cons, same.1 result first]
    split
    · exact mapM_cons_eq_ok_iff.mpr ⟨result, _, first, chosen, rfl⟩
    · exact chosen

/-- A traversal fails with the failure of the first item that has no result. -/
theorem mapM_eq_error_iff {f : α → Except ε β} {items : List α} {error : ε} :
    items.mapM f = .error error ↔
      ∃ front item back, items = front ++ item :: back ∧
        (∀ earlier ∈ front, ∃ result, f earlier = .ok result) ∧ f item = .error error := by
  constructor
  · intro failed
    induction items with
    | nil => cases failed
    | cons item items ih =>
      rw [List.mapM_cons] at failed
      rcases bind_eq_error_iff.mp failed with first | ⟨result, first, later⟩
      · exact ⟨[], item, items, rfl, nofun, first⟩
      · rcases bind_eq_error_iff.mp later with rest | ⟨results, -, success⟩
        · obtain ⟨front, other, back, rfl, succeeds, failure⟩ := ih rest
          exact ⟨item :: front, other, back, rfl,
            List.forall_mem_cons.mpr ⟨⟨result, first⟩, succeeds⟩, failure⟩
        · cases success
  · rintro ⟨front, item, back, rfl, succeeds, failure⟩
    obtain ⟨results, before, -⟩ := exists_mapM (P := fun _ _ => True) fun earlier isMember =>
      (succeeds earlier isMember).imp fun _ success => ⟨success, trivial⟩
    rw [List.mapM_append, before, List.mapM_cons, failure]
    rfl

/-- A traversal that fails does so with the failure of an item. -/
theorem exists_of_mapM_error {f : α → Except ε β} {items : List α} {error : ε}
    (failed : items.mapM f = .error error) : ∃ item ∈ items, f item = .error error := by
  obtain ⟨front, item, back, rfl, -, failure⟩ := mapM_eq_error_iff.mp failed
  exact ⟨item, List.mem_append_right front List.mem_cons_self, failure⟩

theorem forM_eq_ok_iff {check : α → Except ε Unit} {items : List α} :
    items.forM check = .ok () ↔ ∀ item ∈ items, check item = .ok () := by
  induction items with
  | nil => exact ⟨fun _ _ isMember => (List.not_mem_nil isMember).elim, fun _ => rfl⟩
  | cons item items ih =>
    change (check item >>= fun _ => items.forM check) = .ok () ↔ _
    rw [bind_eq_ok_iff]
    constructor
    · rintro ⟨_, first, rest⟩ other isMember
      rcases List.mem_cons.mp isMember with rfl | later
      · exact first
      · exact ih.mp rest other later
    · intro all
      exact ⟨(), all item List.mem_cons_self,
        ih.mpr fun other isMember => all other (List.mem_cons_of_mem _ isMember)⟩

@[simp] theorem liftError_ok (value : α) : liftError (.ok value) = .ok value := rfl

theorem liftError_eq_ok_iff {first : Except Error α} {value : α} :
    liftError first = .ok value ↔ first = .ok value := by
  cases first <;> simp [liftError]

theorem liftError_map (change : α → β) (first : Except Error α) :
    liftError (first.map change) = (liftError first).map change := by
  cases first <;> rfl

end ColumnQuery
