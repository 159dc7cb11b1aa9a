import GameCatalog.Proofs.Json.Distinct
import GameCatalog.Proofs.Record
import GameCatalog.Revision
import Mathlib.Data.List.Basic

/-!
# The changes of one record

A change is about one field, and two versions of a record have at most one change of a field: there
is one exactly where the two versions do not agree. Giving both versions the same value in a field
takes out the change of that field and nothing else.
-/

namespace GameCatalog

open Json

def Change.field : Change → String
  | .added field | .removed field | .changed field => field
  | .renamed _ _ => "name"

namespace Record

variable {old new : Record} {field : String} {value : Value}

theorem field_of_changeOf? {name : String} {change : Change}
    (h : old.changeOf? name value = some change) : change.field = name := by
  unfold changeOf? at h
  split at h
  · cases h
    rfl
  · split at h
    · cases h
    · cases h
      unfold Change.ofValues
      split
      · split
        next hn => exact hn.symm
        next => rfl
      · rfl

/-- The changes of the new fields come in the order of those fields. -/
theorem map_field_filterMap_sublist (old : Record) (members : Members) :
    ((members.filterMap fun (name, value) => old.changeOf? name value).map Change.field).Sublist
      members.names := by
  induction members with
  | nil => exact .refl _
  | cons member rest ih =>
      obtain ⟨name, value⟩ := member
      cases hc : old.changeOf? name value with
      | none => simpa [hc] using ih.cons name
      | some change => simpa [hc, field_of_changeOf? hc] using ih

theorem nodup_map_field_changes (ho : old.fields.names.Nodup) (hn : new.fields.names.Nodup) :
    ((old.changes new).map Change.field).Nodup := by
  have hsub := map_field_filterMap_sublist old new.fields
  unfold changes
  rw [List.map_append, List.map_map, List.nodup_append]
  refine ⟨hn.sublist hsub, ?_, ?_⟩
  · have hid : Change.field ∘ Change.removed = id := rfl
    rw [hid, List.map_id]
    exact ho.filter _
  · intro name hname other hother he
    obtain ⟨gone, hgone, rfl⟩ := List.mem_map.mp hother
    have heq : name = gone := he
    have habsent : new.get? gone = none := by
      simpa using (List.mem_filter.mp hgone).2
    rw [get?, Members.get?_eq_none_iff] at habsent
    exact habsent (heq ▸ hsub.subset hname)

theorem filter_changes_of_not_mem {members : Members} (h : field ∉ members.names) :
    (members.filterMap fun (name, value) => old.changeOf? name value).filter
      (·.field ≠ field) =
      members.filterMap fun (name, value) => old.changeOf? name value := by
  rw [List.filter_eq_self]
  intro change hc
  have hmem := (map_field_filterMap_sublist old members).subset (List.mem_map_of_mem hc)
  have hne : change.field ≠ field := fun e => h (e ▸ hmem)
  simpa using hne

/-- Giving the new fields the old value takes out the change of that field. -/
theorem filterMap_changeOf?_set {members : Members} (names_nodup : members.names.Nodup)
    (hg : old.get? field = some value) (hd : value.Distinct) :
    ((members.set field value).filterMap fun (name, value) => old.changeOf? name value) =
      (members.filterMap fun (name, value) => old.changeOf? name value).filter
        (·.field ≠ field) := by
  have same : old.changeOf? field value = none := by simp [changeOf?, hg, hd.same_refl]
  by_cases hf : field ∈ members.names
  · obtain ⟨before, held, after, hm, hb, hs⟩ := Members.set_of_mem hf value
    have ha : field ∉ Members.names after := by
      rw [hm, Members.names_append, Members.names_cons, List.nodup_append] at names_nodup
      exact (List.nodup_cons.mp names_nodup.2.1).1
    rw [hs, hm]
    simp only [List.filterMap_append, List.filterMap_cons, same, List.filter_append]
    rw [filter_changes_of_not_mem hb]
    cases hc : old.changeOf? field held with
    | none => rw [filter_changes_of_not_mem ha]
    | some change =>
        rw [List.filter_cons_of_neg (by simp [field_of_changeOf? hc]),
          filter_changes_of_not_mem ha]
  · rw [Members.set_of_not_mem hf, filter_changes_of_not_mem hf]
    simp [same]

theorem changes_set (names_nodup : new.fields.names.Nodup) (hg : old.get? field = some value)
    (hd : value.Distinct) :
    old.changes (new.set field value) = (old.changes new).filter (·.field ≠ field) := by
  unfold changes
  rw [List.filter_append]
  congr 1
  · exact filterMap_changeOf?_set names_nodup hg hd
  · rw [List.filter_map, List.filter_filter]
    congr 1
    apply List.filter_congr
    intro name _
    by_cases hn : name = field
    · subst hn
      simp [Change.field]
    · simp [get?_set_of_ne hn, Change.field, hn]

/-! ## The change of one field -/

/-- The change of a field between two versions of a record, if there is one. -/
def changeAt? (old new : Record) (field : String) : Option Change :=
  match new.get? field with
  | some value => old.changeOf? field value
  | none => if (old.get? field).isSome then some (.removed field) else none

/-- The changes of two versions are those of their fields. -/
theorem mem_changes_iff (names_nodup : new.fields.names.Nodup) {change : Change} :
    change ∈ old.changes new ↔ old.changeAt? new change.field = some change := by
  unfold changes changeAt?
  rw [List.mem_append, List.mem_filterMap, List.mem_map]
  constructor
  · rintro (⟨⟨name, value⟩, hm, hc⟩ | ⟨name, hm, rfl⟩)
    · have hnew : new.get? name = some value := Members.get?_of_mem names_nodup hm
      rw [field_of_changeOf? hc, hnew]
      exact hc
    · obtain ⟨hname, hnone⟩ := List.mem_filter.mp hm
      have hnew : new.get? name = none := by simpa using hnone
      have hold : old.get? name ≠ none := fun h => Members.get?_eq_none_iff.mp h hname
      simp [Change.field, hnew, Option.isSome_iff_ne_none.mpr hold]
  · intro h
    split at h
    next value hnew => exact .inl ⟨(change.field, value), Members.mem_of_get? hnew, h⟩
    next hnew =>
      split at h
      next hold =>
        obtain ⟨held, hheld⟩ := Option.isSome_iff_exists.mp hold
        have hname := Members.name_mem_of_mem (Members.mem_of_get? hheld)
        exact .inr ⟨change.field, List.mem_filter.mpr ⟨hname, by simp [hnew]⟩, Option.some.inj h⟩
      next => cases h

theorem field_of_changeAt? {change : Change} (h : old.changeAt? new field = some change) :
    change.field = field := by
  unfold changeAt? at h
  split at h
  · exact field_of_changeOf? h
  · split at h
    · cases h
      rfl
    · cases h

def agreesAt (old new : Record) (field : String) : Bool :=
  match old.get? field, new.get? field with
  | none, none => true
  | some held, some value => held.same value
  | _, _ => false

theorem isSome_changeAt? (old new : Record) (field : String) :
    (old.changeAt? new field).isSome = !old.agreesAt new field := by
  unfold changeAt? agreesAt changeOf?
  cases hold : old.get? field with
  | none => cases new.get? field <;> rfl
  | some held =>
      cases hnew : new.get? field with
      | none => rfl
      | some value => cases hs : held.same value <;> simp [hs]

/-- There is a change of a field exactly where the two versions do not agree. -/
theorem exists_change_iff (names_nodup : new.fields.names.Nodup) :
    (∃ change ∈ old.changes new, change.field = field) ↔ old.agreesAt new field = false := by
  have hsome := isSome_changeAt? old new field
  constructor
  · rintro ⟨change, hc, rfl⟩
    rw [mem_changes_iff names_nodup] at hc
    simpa [hc] using hsome
  · intro h
    rw [h, Bool.not_false, Option.isSome_iff_exists] at hsome
    obtain ⟨change, hc⟩ := hsome
    have hfield := field_of_changeAt? hc
    exact ⟨change, (mem_changes_iff names_nodup).mpr (hfield ▸ hc), hfield⟩

theorem filter_changes_ne_nil_iff (names_nodup : new.fields.names.Nodup) :
    (old.changes new).filter (·.field ≠ field) ≠ [] ↔
      ∃ other ≠ field, old.agreesAt new other = false := by
  constructor
  · intro h
    obtain ⟨change, hm⟩ := List.exists_mem_of_ne_nil _ h
    obtain ⟨hc, hne⟩ := List.mem_filter.mp hm
    exact ⟨change.field, by simpa using hne,
      (exists_change_iff names_nodup).mp ⟨change, hc, rfl⟩⟩
  · rintro ⟨other, hne, hdiffers⟩
    obtain ⟨change, hc, rfl⟩ := (exists_change_iff names_nodup).mpr hdiffers
    exact List.ne_nil_of_mem (List.mem_filter.mpr ⟨hc, by simpa using hne⟩)

/-- A value given to the old version in a field bears on the change of that field alone. -/
theorem filter_changes_set_old (old new : Record) (field : String) (value : Value) :
    ((old.set field value).changes new).filter (·.field ≠ field) =
      (old.changes new).filter (·.field ≠ field) := by
  unfold changes
  rw [List.filter_append, List.filter_append]
  congr 1
  · rw [List.filter_filterMap, List.filter_filterMap]
    refine List.filterMap_congr fun member _ => ?_
    obtain ⟨name, held⟩ := member
    by_cases hn : name = field
    · have own : ∀ (record : Record) (change : Change),
          record.changeOf? name held = some change → ¬change.field ≠ field := by
        intro record change hc
        rw [field_of_changeOf? hc]
        exact not_not.mpr hn
      rw [Option.filter_eq_none_iff.mpr, Option.filter_eq_none_iff.mpr]
      · simpa using own old
      · simpa using own (old.set field value)
    · simp only [changeOf?, get?_set_of_ne hn]
  · rw [List.filter_map, List.filter_map, List.filter_filter, List.filter_filter]
    simp only [set, Members.names_set]
    split
    · rfl
    · simp [List.filter_append, Change.field]

end Record

end GameCatalog
