import GameCatalog.Proofs.Agreement
import Mathlib.Logic.Function.Basic

/-!
# Revisions in the other direction

The revision from the new catalog back to the old one reports the same differences the other way
round. What one direction adds the other removes, and an updated record has the same changes, each
of them mirrored. The changes may come in another order, since they follow the new fields.
-/

namespace GameCatalog

open Json

namespace Change

def mirror : Change → Change
  | .added field => .removed field
  | .removed field => .added field
  | .changed field => .changed field
  | .renamed old new => .renamed new old

@[simp] theorem mirror_mirror (change : Change) : change.mirror.mirror = change := by
  cases change <;> rfl

@[simp] theorem field_mirror (change : Change) : change.mirror.field = change.field := by
  cases change <;> rfl

theorem involutive_mirror : Function.Involutive mirror := mirror_mirror

theorem mirror_ofValues (field : String) (old new : Value) :
    (ofValues field old new).mirror = ofValues field new old := by
  cases old with
  | str a =>
      cases new with
      | str b => by_cases h : field = "name" <;> simp [ofValues, h, mirror]
      | _ => rfl
  | _ => cases new <;> rfl

end Change

namespace Record

variable {a b : Record}

/-- The change of a field between two distinct versions, seen from the other side. -/
theorem changeAt?_mirror (ha : a.Distinct) (hb : b.Distinct) (field : String) :
    b.changeAt? a field = (a.changeAt? b field).map Change.mirror := by
  unfold changeAt? changeOf?
  cases hold : a.get? field with
  | none =>
      cases hnew : b.get? field with
      | none => rfl
      | some value => rfl
  | some held =>
      cases hnew : b.get? field with
      | none => rfl
      | some value =>
          have same_comm : value.same held = held.same value :=
            Value.Distinct.same_comm (.of_get? hb hnew) (.of_get? ha hold)
          cases hs : held.same value with
          | true => simp [same_comm, hs]
          | false => simp [same_comm, hs, Change.mirror_ofValues]

theorem changes_perm_mirror (ha : a.Distinct) (hb : b.Distinct) :
    (a.changes b).Perm ((b.changes a).map Change.mirror) := by
  have nodup := (nodup_map_field_changes ha.names_nodup hb.names_nodup).of_map
  have nodup_back := (nodup_map_field_changes hb.names_nodup ha.names_nodup).of_map
  have nodup_mirrored := nodup_back.map Change.involutive_mirror.injective
  rw [List.perm_ext_iff_of_nodup nodup nodup_mirrored]
  intro change
  rw [List.mem_map_of_involutive Change.involutive_mirror, mem_changes_iff hb.names_nodup,
    mem_changes_iff ha.names_nodup, changeAt?_mirror ha hb, Change.field_mirror,
    Option.map_eq_some_iff]
  constructor
  · intro h
    exact ⟨change, h, rfl⟩
  · rintro ⟨other, h, he⟩
    rwa [Change.involutive_mirror.injective he] at h

end Record

/-- The update in the other direction: the versions are exchanged and each change is mirrored. -/
structure Update.Mirrors (update back : Update) : Prop where
  uid : update.uid = back.uid
  old : update.old = back.new
  new : update.new = back.old
  changes : update.changes.Perm (back.changes.map Change.mirror)

theorem Update.Mirrors.symm {update back : Update} (h : update.Mirrors back) :
    back.Mirrors update where
  uid := h.uid.symm
  old := h.new.symm
  new := h.old.symm
  changes := by
    have mirrored := h.changes.map Change.mirror
    rw [List.map_map, Change.involutive_mirror.comp_self, List.map_id] at mirrored
    exact mirrored.symm

namespace Revision

/-- The revision in the other direction, with all its lists in the same order. -/
structure Mirrors (revision back : Revision) : Prop where
  added : revision.added = back.removed
  removed : revision.removed = back.added
  updated : List.Forall₂ Update.Mirrors revision.updated back.updated

section Tables

variable {first second : Catalog} {table otherTable : UidTable}

theorem exists_mirrored (first_distinct : first.Distinct) (second_distinct : second.Distinct)
    (hfirst : first.uidTable .every = .ok table) (hsecond : second.uidTable .every = .ok otherTable)
    {update : Update} (h : update ∈ (ofTables table otherTable).updated) :
    ∃ back ∈ (ofTables otherTable table).updated, update.Mirrors back := by
  obtain ⟨hold, hnew, hchanges, nonempty⟩ :=
    (mem_updated_iff (Catalog.ascending_uidTable hsecond)).mp h
  have mirrored := Record.changes_perm_mirror (first_distinct.of_find? hfirst hold)
    (second_distinct.of_find? hsecond hnew)
  rw [← hchanges] at mirrored
  have back_nonempty : update.new.changes update.old ≠ [] := by
    intro none_back
    rw [none_back] at mirrored
    exact nonempty mirrored.eq_nil
  refine ⟨⟨update.uid, update.new, update.old, update.new.changes update.old⟩, ?_,
    rfl, rfl, rfl, mirrored⟩
  exact (mem_updated_iff (Catalog.ascending_uidTable hfirst)).mpr ⟨hnew, hold, rfl, back_nonempty⟩

/-- Each update has its mirror image in the other direction, and both directions ascend by uid. -/
theorem mirrors_ofTables (first_distinct : first.Distinct) (second_distinct : second.Distinct)
    (hfirst : first.uidTable .every = .ok table)
    (hsecond : second.uidTable .every = .ok otherTable) :
    (ofTables table otherTable).Mirrors (ofTables otherTable table) where
  added := rfl
  removed := rfl
  updated := by
    have ascending := Catalog.ascending_uidTable hfirst
    have ascending' := Catalog.ascending_uidTable hsecond
    refine UidTable.forall₂_of_ascending Update.uid Update.uid Update.Mirrors.uid
      (ascending_ofTables ascending ascending').2.2 (ascending_ofTables ascending' ascending).2.2
      ?_ ?_
    · intro update hm
      exact exists_mirrored first_distinct second_distinct hfirst hsecond hm
    · intro back hm
      obtain ⟨update, hupdate, hmirrors⟩ :=
        exists_mirrored second_distinct first_distinct hsecond hfirst hm
      exact ⟨update, hupdate, hmirrors.symm⟩

end Tables

/-- The two directions of a comparison succeed together, and mirror each other. -/
theorem between_mirrored {first second : Catalog} (first_distinct : first.Distinct)
    (second_distinct : second.Distinct) :
    ((∃ revision, between first second = .ok revision) ↔
        ∃ back, between second first = .ok back) ∧
      ∀ revision back, between first second = .ok revision → between second first = .ok back →
        revision.Mirrors back := by
  constructor
  · rw [exists_between_iff, exists_between_iff]
    exact And.comm
  · intro revision back h hback
    obtain ⟨table, otherTable, hfirst, hsecond, rfl⟩ := between_eq_ok_iff.mp h
    obtain ⟨otherTable', table', hsecond', hfirst', rfl⟩ := between_eq_ok_iff.mp hback
    obtain rfl : table = table' := Except.ok.inj (hfirst.symm.trans hfirst')
    obtain rfl : otherTable = otherTable' := Except.ok.inj (hsecond.symm.trans hsecond')
    exact mirrors_ofTables first_distinct second_distinct hfirst hsecond

/-- Hex comes or goes. The two versions of Go have three changes in either direction, of which the
added field comes before the removed one. -/
theorem between_mirrored_weiqi :
    let hex : Uid := ⟨9, by decide⟩
    let old := Catalog.new ⟨2024, 1, 0⟩ [weiqi]
    let new := Catalog.new ⟨2024, 2, 0⟩ [⟨[("uid", .num hex.toNumber)]⟩, go]
    old.Distinct ∧ new.Distinct ∧ ∃ revision back, between old new = .ok revision ∧
      between new old = .ok back ∧ revision.added.uids = [hex] ∧
      revision.updated.map Update.changes =
        [[.renamed "Weiqi" "Go", .added "max", .removed "min"]] ∧
      back.updated.map Update.changes = [[.renamed "Go" "Weiqi", .added "min", .removed "max"]] ∧
      revision.Mirrors back := by
  intro hex old new
  have old_distinct : old.Distinct := by
    simp [old, weiqi, Catalog.new, Catalog.Distinct, Record.Distinct, -Prod.forall]
  have new_distinct : new.Distinct := by
    simp [new, go, Catalog.new, Catalog.Distinct, Record.Distinct, -Prod.forall]
  obtain ⟨together, mirrors⟩ := between_mirrored old_distinct new_distinct
  obtain ⟨back, hback⟩ := together.mp ⟨_, rfl⟩
  have back_eq := Except.ok.inj (hback.symm.trans rfl)
  subst back_eq
  exact ⟨old_distinct, new_distinct, _, _, rfl, hback, rfl, rfl, rfl, mirrors _ _ rfl hback⟩

end Revision

end GameCatalog
