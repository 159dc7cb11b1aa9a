import GameCatalog.Proofs.Carry
import GameCatalog.Proofs.Changes
import GameCatalog.Proofs.Reload
import GameCatalog.Proofs.Revision

/-!
# What carrying takes out of a revision

After a field was carried from the old catalog, the revision between the two catalogs is the one
from before without the changes of that field, wherever the old record had a value for it. The
field may be `name` or `uid`.
-/

namespace GameCatalog

open Json

def Record.Distinct (record : Record) : Prop := (Value.obj record.fields).Distinct

def Catalog.Distinct (catalog : Catalog) : Prop := ∀ record ∈ catalog.games, record.Distinct

/-- The records of every catalog that comes from files have distinct names. -/
theorem Catalog.Reachable.distinct {catalog : Catalog} (h : catalog.Reachable) :
    catalog.Distinct :=
  fun record hm => (h.readable.games record hm).distinct

/-- What is left of an update when the new record takes the old value of a field: the new record
with that value, and the changes of the other fields, if there are any. -/
def Update.settle (field : String) (update : Update) : Option Update :=
  match update.old.get? field with
  | none => some update
  | some value =>
      if value.isNull then some update
      else
        let changes := update.changes.filter (·.field ≠ field)
        if changes.isEmpty then none
        else some { update with new := update.new.set field value, changes }

def Revision.settle (field : String) (revision : Revision) : Revision :=
  { revision with updated := revision.updated.filterMap (Update.settle field) }

/-! ## Carried records -/

namespace Record

theorem carriedFrom_of_find? {table : UidTable} {record source : Record} {uid : Uid}
    (hr : record.resolved? = some uid) (hf : table.find? uid = some source) (field : String) :
    record.carriedFrom table field =
      match source.get? field with
      | none => record
      | some value => if value.isNull then record else record.set field value := by
  cases hg : source.get? field with
  | none => simp [carriedFrom, Transfer.of, hr, hf, hg, Transfer.apply]
  | some value => cases hn : value.isNull <;>
      simp [carriedFrom, Transfer.of, hr, hf, hg, hn, Transfer.apply]

theorem carriedFrom_of_find?_eq_none {table : UidTable} {record : Record} {uid : Uid}
    (hr : record.resolved? = some uid) (hf : table.find? uid = none) (field : String) :
    record.carriedFrom table field = record := by
  simp [carriedFrom, Transfer.of, hr, hf, Transfer.apply]

end Record

/-! ## The revision -/

namespace Revision

variable {table : UidTable} {uid : Uid} {source record : Record}

theorem update?_carriedFrom (hr : record.resolved? = some uid)
    (names_nodup : record.fields.names.Nodup)
    (table_distinct : ∀ source, table.find? uid = some source → source.Distinct)
    (field : String) :
    update? table (uid, record.carriedFrom table field) =
      (update? table (uid, record)).bind (Update.settle field) := by
  cases hf : table.find? uid with
  | none => simp [update?, hf]
  | some source =>
      have hc := Record.carriedFrom_of_find? hr hf field
      cases hg : source.get? field with
      | none =>
          simp only [hg] at hc
          rw [hc, update?_of_find? hf]
          split
          · rfl
          · simp [Update.settle, hg]
      | some value =>
          cases hn : value.isNull with
          | true =>
              simp only [hg, hn, if_true] at hc
              rw [hc, update?_of_find? hf]
              split
              · rfl
              · simp [Update.settle, hg, hn]
          | false =>
              simp only [hg, hn, Bool.false_eq_true, if_false] at hc
              have hd : value.Distinct := (table_distinct source hf).of_get? hg
              rw [hc, update?_of_find? hf, update?_of_find? hf,
                Record.changes_set names_nodup hg hd]
              by_cases he : source.changes record = []
              · simp [he]
              · simp [he, Update.settle, hg, hn]

theorem missingFrom_mapRecords {other table : UidTable} {rewrite : Record → Record}
    (h : ∀ entry ∈ table, other.find? entry.1 = none → rewrite entry.2 = entry.2) :
    missingFrom other (table.mapRecords rewrite) = missingFrom other table := by
  unfold missingFrom UidTable.mapRecords
  rw [List.filter_map]
  refine (List.map_congr_left fun entry hm => ?_).trans (List.map_id _)
  obtain ⟨hmem, hnone⟩ := List.mem_filter.mp hm
  simp only [Function.comp_apply, Option.isNone_iff_eq_none] at hnone
  rw [h entry hmem hnone]
  rfl

theorem missingFrom_of_mapRecords (other table : UidTable) (rewrite : Record → Record) :
    missingFrom (other.mapRecords rewrite) table = missingFrom other table := by
  unfold missingFrom
  simp [UidTable.find?_mapRecords]

/-- Carrying a field succeeds on catalogs that can be compared, and takes the changes of that field
out of their revision and nothing else. A record has at most one change of a field. -/
theorem between_carry {old new : Catalog} {revision : Revision} (old_distinct : old.Distinct)
    (new_distinct : new.Distinct) (h : between old new = .ok revision) (field : String) :
    (∃ report, (old.carry new field).answer = .ok report) ∧
      between old (old.carry new field).catalog = .ok (revision.settle field) ∧
      ∀ update ∈ revision.updated, (update.changes.map Change.field).Nodup := by
  obtain ⟨table, newTable, ho, hn, rfl⟩ := between_eq_ok_iff.mp h
  have carried := Catalog.carry_of_tables (Catalog.tabulate_resolved_of_every ho)
    (Catalog.tabulate_resolved_of_every hn) field
  have table_distinct : ∀ uid source, table.find? uid = some source → source.Distinct :=
    fun uid source hf => old_distinct source (Catalog.mem_of_find?_uidTable ho hf).1
  have entries : ∀ entry ∈ newTable, entry.2.resolved? = some entry.1 ∧ entry.2.Distinct := by
    intro entry hm
    obtain ⟨hmem, hu⟩ := Catalog.mem_uidTable hn hm
    exact ⟨Record.uid_eq_resolved_iff.mp hu, new_distinct _ hmem⟩
  refine ⟨⟨_, by rw [carried]⟩, ?_, ?_⟩
  · have hn' : Catalog.tabulate .every [] (new.games.map (·.carriedFrom table field)) =
        .ok (newTable.mapRecords (·.carriedFrom table field)) :=
      Catalog.tabulate_map hn fun record _ state hu => Record.uid_carriedFrom ho field hu
    rw [carried]
    refine between_eq_ok_iff.mpr ⟨table, _, ho, hn', ?_⟩
    unfold ofTables settle
    congr 1
    · refine (missingFrom_mapRecords fun entry hm hf => ?_).symm
      exact Record.carriedFrom_of_find?_eq_none (entries entry hm).1 hf field
    · exact (missingFrom_of_mapRecords newTable table _).symm
    · rw [UidTable.mapRecords, List.filterMap_map, List.filterMap_filterMap]
      apply List.filterMap_congr
      intro entry hm
      obtain ⟨hr, hd⟩ := entries entry hm
      exact (update?_carriedFrom hr (Value.distinct_obj_iff.mp hd).1 (table_distinct entry.1)
        field).symm
  · intro update hm
    obtain ⟨entry, hentry, hu⟩ := List.mem_filterMap.mp hm
    cases hf : table.find? entry.1 with
    | none => simp [update?, hf] at hu
    | some source =>
        rw [update?_of_find? hf] at hu
        split at hu
        · cases hu
        · cases hu
          exact Record.nodup_map_field_changes
            (Value.distinct_obj_iff.mp (table_distinct entry.1 source hf)).1
            (Value.distinct_obj_iff.mp (entries entry hentry).2).1

def weiqi : Record :=
  ⟨[("uid", .num (.int 1 (by decide))), ("name", .str "Weiqi"), ("min", .num (.int 2 (by decide)))]⟩

def go : Record :=
  ⟨[("name", .str "Go"), ("uid", .num (.int 1 (by decide))), ("max", .null)]⟩

/-- Carrying the name takes back the renaming and leaves the two other changes. -/
theorem between_carry_weiqi :
    let old := Catalog.new ⟨2024, 1, 0⟩ [weiqi]
    let new := Catalog.new ⟨2024, 2, 0⟩ [go]
    let update : Update :=
      ⟨⟨1, by decide⟩, weiqi, go, [.renamed "Weiqi" "Go", .added "max", .removed "min"]⟩
    old.Distinct ∧ new.Distinct ∧ between old new = .ok ⟨[], [], [update]⟩ ∧
      between old (old.carry new "name").catalog =
        .ok ⟨[], [], [{ update with
          new := go.set "name" (.str "Weiqi")
          changes := [.added "max", .removed "min"] }]⟩ := by
  intro old new update
  have old_distinct : old.Distinct := by
    simp [old, weiqi, Catalog.new, Catalog.Distinct, Record.Distinct, -Prod.forall]
  have new_distinct : new.Distinct := by
    simp [new, go, Catalog.new, Catalog.Distinct, Record.Distinct, -Prod.forall]
  have compared : between old new = .ok ⟨[], [], [update]⟩ := rfl
  exact ⟨old_distinct, new_distinct, compared,
    (between_carry old_distinct new_distinct compared "name").2.1⟩

end Revision

end GameCatalog
