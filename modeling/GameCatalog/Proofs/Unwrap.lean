import GameCatalog.Catalog.Unwrap
import GameCatalog.Proofs.Record

/-!
# Unwrapping as a rewriting of records

Unwrapping rewrites each record by itself, one field after the other, and touches no field that is
not named.
-/

namespace GameCatalog

open Json

namespace Record

/-- A field is left as it is or loses one layer. -/
theorem unwrap_cases (record : Record) (field : String) :
    (record.unwrap field).1 = record ∨
    ∃ item, record.get? field = some (.arr [item]) ∧
      (record.unwrap field).1 = record.set field item := by
  unfold unwrap
  cases hg : record.get? field with
  | none => exact .inl rfl
  | some value =>
      cases ho : Json.Value.only? value with
      | none =>
          left
          simp [ho]
      | some item =>
          right
          refine ⟨item, ?_, by simp [ho]⟩
          unfold Json.Value.only? at ho
          split at ho
          · cases ho
            rfl
          · cases ho

theorem unwrapAll_cons (record : Record) (field : String) (rest : List String) :
    (record.unwrapAll (field :: rest)).1 = ((record.unwrap field).1.unwrapAll rest).1 := rfl

theorem unwrapAll_keeps {P : Record → Prop}
    (unwrap_keeps : ∀ {record}, P record → ∀ field, P (record.unwrap field).1) {record : Record}
    (h : P record) (fields : List String) : P (record.unwrapAll fields).1 := by
  induction fields generalizing record with
  | nil => exact h
  | cons field rest ih =>
      rw [unwrapAll_cons]
      exact ih (unwrap_keeps h field)

theorem get?_unwrapAll {name : String} {fields : List String} (h : name ∉ fields)
    (record : Record) : (record.unwrapAll fields).1.get? name = record.get? name := by
  induction fields generalizing record with
  | nil => rfl
  | cons field rest ih =>
      rw [List.mem_cons, not_or] at h
      rw [unwrapAll_cons, ih h.2]
      rcases unwrap_cases record field with hu | ⟨item, -, hu⟩
      · rw [hu]
      · rw [hu, get?_set_of_ne h.1]

theorem resolved?_unwrapAll {fields : List String} (h : "uid" ∉ fields) (record : Record) :
    (record.unwrapAll fields).1.resolved? = record.resolved? :=
  resolved?_congr (get?_unwrapAll h record)

theorem name?_unwrapAll {fields : List String} (h : "name" ∉ fields) (record : Record) :
    (record.unwrapAll fields).1.name? = record.name? :=
  name?_congr (get?_unwrapAll h record)

end Record

theorem Catalog.unwrap_catalog (catalog : Catalog) (fields : List String) :
    (catalog.unwrap fields).1 =
      { catalog with games := catalog.games.map fun record => (record.unwrapAll fields).1 } := by
  simp [Catalog.unwrap, Function.comp_def]

end GameCatalog
