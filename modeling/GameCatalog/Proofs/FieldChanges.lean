import GameCatalog.Proofs.Agreement
import GameCatalog.Proofs.Json.StructuralEquality

/-!
# What the changes of a record tell

The changes of two versions of a record say of each field in which they differ, once, how they
differ there, and nothing of any other field. They follow the fields of the new version, and the
fields that are gone come last, in the order of the old version.
-/

namespace GameCatalog

open Json

theorem Change.ofValues_cases (field : String) (held value : Value) :
    (∃ before after, field = "name" ∧ held = .str before ∧ value = .str after ∧
      ofValues field held value = .renamed before after) ∨
    (field = "name" → ∀ before after, held = .str before → value ≠ .str after) ∧
      ofValues field held value = .changed field := by
  unfold Change.ofValues
  split
  next before after =>
    split
    next is_name => exact .inl ⟨before, after, is_name, rfl, rfl, rfl⟩
    next other => exact .inr ⟨fun is_name => absurd is_name other, rfl⟩
  next not_texts => exact .inr ⟨fun _ before after hb ha => not_texts before after hb ha, rfl⟩

namespace Record

variable {old new : Record} {field : String}

def Equal (old new : Record) : Prop := (Value.obj old.fields).Equal (.obj new.fields)

/-- Both versions lack the field, or they have equal values there. -/
def EqualAt (old new : Record) (field : String) : Prop :=
  Option.Rel Value.Equal (old.get? field) (new.get? field)

/-- How two versions differ in a field. Only where both have a text as their name it is told. -/
inductive Differs (old new : Record) : String → Change → Prop where
  | added {field : String} {value : Value} (missing : old.get? field = none)
      (present : new.get? field = some value) : Differs old new field (.added field)
  | removed {field : String} {held : Value} (present : old.get? field = some held)
      (missing : new.get? field = none) : Differs old new field (.removed field)
  | renamed {before after : String} (held : old.get? "name" = some (.str before))
      (given : new.get? "name" = some (.str after)) (apart : before ≠ after) :
      Differs old new "name" (.renamed before after)
  | changed {field : String} {held value : Value} (present : old.get? field = some held)
      (given : new.get? field = some value) (apart : ¬held.Equal value)
      (no_renaming : field = "name" → ∀ before after, held = .str before → value ≠ .str after) :
      Differs old new field (.changed field)

/-- Changes that tell all differences of two versions and nothing else, in order. -/
structure IsDiff (old new : Record) (changes : List Change) : Prop where
  described : ∀ field, ¬old.EqualAt new field →
    ∃ change, old.Differs new field change ∧ changes.filter (·.field = field) = [change]
  silent : ∀ field, old.EqualAt new field → changes.filter (·.field = field) = []
  in_order : ∃ present, (present.map Change.field).Sublist new.fields.names ∧
    changes = present ++ (old.fields.names.filter (· ∉ new.fields.names)).map .removed
  nil_iff : changes = [] ↔ old.Equal new

theorem same_iff_equal (old_distinct : old.Distinct) (new_distinct : new.Distinct) :
    old.same new = true ↔ old.Equal new :=
  Value.Distinct.same_iff_equal old_distinct new_distinct

theorem agreesAt_iff_equalAt (old_distinct : old.Distinct) (new_distinct : new.Distinct) :
    old.agreesAt new field = true ↔ old.EqualAt new field := by
  unfold agreesAt EqualAt
  cases hold : old.get? field with
  | none => cases new.get? field <;> simp
  | some held =>
      cases hnew : new.get? field with
      | none => simp
      | some value =>
          rw [Option.rel_some_some]
          exact (Value.Distinct.of_get? old_distinct hold).same_iff_equal
            (Value.Distinct.of_get? new_distinct hnew)

theorem differs_of_changeAt? (old_distinct : old.Distinct) (new_distinct : new.Distinct)
    {change : Change} (h : old.changeAt? new field = some change) :
    old.Differs new field change := by
  unfold changeAt? at h
  cases hnew : new.get? field with
  | none =>
      simp only [hnew] at h
      split at h
      next present =>
        obtain ⟨held, hold⟩ := Option.isSome_iff_exists.mp present
        exact Option.some.inj h ▸ .removed hold hnew
      next => cases h
  | some value =>
      simp only [hnew, changeOf?] at h
      cases hold : old.get? field with
      | none =>
          simp only [hold, Option.some.injEq] at h
          exact h ▸ .added hold hnew
      | some held =>
          simp only [hold] at h
          split at h
          next => cases h
          next unequal =>
            have apart : ¬held.Equal value := fun equal => unequal
              (equal.same (.of_get? old_distinct hold) (.of_get? new_distinct hnew))
            rw [← Option.some.inj h]
            rcases Change.ofValues_cases field held value with
              ⟨before, after, rfl, rfl, rfl, change_eq⟩ | ⟨no_renaming, change_eq⟩
            · rw [change_eq]
              exact .renamed hold hnew fun e => apart (e ▸ .str before)
            · rw [change_eq]
              exact .changed hold hnew apart no_renaming

theorem filter_field_eq_singleton {changes : List Change}
    (nodup : (changes.map Change.field).Nodup) {change : Change} (hm : change ∈ changes) :
    changes.filter (·.field = change.field) = [change] := by
  induction changes with
  | nil => cases hm
  | cons first rest ih =>
      obtain ⟨first_new, rest_nodup⟩ := List.nodup_cons.mp nodup
      rcases List.mem_cons.mp hm with rfl | hm
      · have none_later : rest.filter (·.field = change.field) = [] := by
          rw [List.filter_eq_nil_iff]
          intro other hother
          have apart : other.field ≠ change.field :=
            fun e => first_new (e ▸ List.mem_map_of_mem hother)
          simpa using apart
        rw [List.filter_cons_of_pos (by simp), none_later]
      · have apart : first.field ≠ change.field := fun e => first_new (e ▸ List.mem_map_of_mem hm)
        rw [List.filter_cons_of_neg (by simpa using apart), ih rest_nodup hm]

/-- The changes of two versions tell all their differences and nothing else. -/
theorem changes_isDiff (old_distinct : old.Distinct) (new_distinct : new.Distinct) :
    old.IsDiff new (old.changes new) where
  described field differs := by
    have disagree : old.agreesAt new field = false := by
      rw [Bool.eq_false_iff, ne_eq, agreesAt_iff_equalAt old_distinct new_distinct]
      exact differs
    obtain ⟨change, hm, rfl⟩ := (exists_change_iff new_distinct.names_nodup).mpr disagree
    have listed := (mem_changes_iff new_distinct.names_nodup).mp hm
    have nodup := nodup_map_field_changes old_distinct.names_nodup new_distinct.names_nodup
    exact ⟨change, differs_of_changeAt? old_distinct new_distinct listed,
      filter_field_eq_singleton nodup hm⟩
  silent field equal := by
    rw [List.filter_eq_nil_iff]
    intro change hm is_field
    have disagree := (exists_change_iff new_distinct.names_nodup).mp
      ⟨change, hm, by simpa using is_field⟩
    rw [(agreesAt_iff_equalAt old_distinct new_distinct).mpr equal] at disagree
    cases disagree
  in_order := by
    refine ⟨_, map_field_filterMap_sublist old new.fields, ?_⟩
    unfold changes
    congr 3
    funext field
    rw [Bool.eq_iff_iff, Option.isNone_iff_eq_none, get?, Members.get?_eq_none_iff,
      decide_eq_true_iff]
  nil_iff := by
    rw [changes_eq_nil_iff old_distinct new_distinct, same_iff_equal old_distinct new_distinct]

/-- The version from before, with a board of two members. -/
def plainBoard : Record :=
  ⟨[("uid", .num (.int 5 (by decide))), ("gone", .null), ("name", .str "Weiqi"),
    ("rules", .arr [.bool true]),
    ("board", .obj [("lines", .num (.int 13 (by decide))), ("komi", .null)])]⟩

def turnedBoard : Record :=
  ⟨[("board", .obj [("komi", .null), ("lines", .num (.int 13 (by decide)))]),
    ("rules", .arr [.bool false]), ("name", .str "Go"), ("fresh", .null),
    ("uid", .num (.int 5 (by decide)))]⟩

/-- There is nothing to tell of the board, and the field that is gone comes last. -/
theorem changes_isDiff_turnedBoard :
    plainBoard.Distinct ∧ turnedBoard.Distinct ∧
      plainBoard.IsDiff turnedBoard
        [.changed "rules", .renamed "Weiqi" "Go", .added "fresh", .removed "gone"] ∧
      ¬plainBoard.Equal turnedBoard := by
  have plain_distinct : plainBoard.Distinct := by
    simp [plainBoard, Record.Distinct, -Prod.forall]
  have turned_distinct : turnedBoard.Distinct := by
    simp [turnedBoard, Record.Distinct, -Prod.forall]
  have isDiff := changes_isDiff plain_distinct turned_distinct
  refine ⟨plain_distinct, turned_distinct, isDiff, fun equal => ?_⟩
  cases isDiff.nil_iff.mpr equal

end Record

end GameCatalog
