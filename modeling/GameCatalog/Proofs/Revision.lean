import GameCatalog.Proofs.Except
import GameCatalog.Proofs.UidTable
import GameCatalog.Revision

/-!
# The revision of two tables

Where both catalogs have a table of all their records, their revision is read off the two tables,
and each of its lists ascends by uid as the tables do. What came and went are the uids of one table
only; what is updated are the uids of both whose records have a change.
-/

namespace GameCatalog

/-- The records can be looked up by uid: each has a resolved one, and no two have the same. -/
def Catalog.Keyed (catalog : Catalog) : Prop := ∃ table, catalog.uidTable .every = .ok table

namespace Revision

theorem update?_of_find? {table : UidTable} {uid : Uid} {source : Record}
    (hf : table.find? uid = some source) (record : Record) :
    update? table (uid, record) =
      if (source.changes record).isEmpty then none
      else some ⟨uid, source, record, source.changes record⟩ := by
  simp [update?, hf]

theorem uid_of_update? {table : UidTable} {entry : Uid × Record} {update : Update}
    (h : update? table entry = some update) : update.uid = entry.1 := by
  cases hf : table.find? entry.1 with
  | none => simp [update?, hf] at h
  | some source =>
      rw [update?_of_find? hf] at h
      split at h
      · cases h
      · cases h
        rfl

theorem uids_missingFrom {other table : UidTable} {uid : Uid} :
    uid ∈ (missingFrom other table).uids ↔ uid ∈ table.uids ∧ uid ∉ other.uids := by
  simp only [missingFrom, UidTable.uids, List.mem_map, List.mem_filter, Option.isNone_iff_eq_none,
    UidTable.find?_eq_none_iff]
  constructor
  · rintro ⟨entry, ⟨hm, hmissing⟩, rfl⟩
    exact ⟨⟨entry, hm, rfl⟩, hmissing⟩
  · rintro ⟨⟨entry, hm, rfl⟩, hmissing⟩
    exact ⟨entry, ⟨hm, hmissing⟩, rfl⟩

/-- An update has the records that both tables hold under its uid, and their changes. -/
theorem mem_updated_iff {table newTable : UidTable} (ascending : newTable.Ascending)
    {update : Update} :
    update ∈ (ofTables table newTable).updated ↔
      table.find? update.uid = some update.old ∧ newTable.find? update.uid = some update.new ∧
        update.changes = update.old.changes update.new ∧ update.changes ≠ [] := by
  simp only [ofTables, List.mem_filterMap]
  constructor
  · rintro ⟨⟨uid, record⟩, hm, hu⟩
    cases hf : table.find? uid with
    | none => simp [update?, hf] at hu
    | some source =>
        rw [update?_of_find? hf] at hu
        split at hu
        · cases hu
        next hne =>
          cases hu
          exact ⟨hf, ascending.find?_eq_some_iff.mpr hm, rfl, by simpa using hne⟩
  · rintro ⟨hf, hn, hchanges, hne⟩
    refine ⟨(update.uid, update.new), ascending.find?_eq_some_iff.mp hn, ?_⟩
    rw [hchanges] at hne
    rw [update?_of_find? hf, if_neg (by simpa using hne), ← hchanges]

theorem between_eq_ok_iff {old new : Catalog} {revision : Revision} :
    between old new = .ok revision ↔
      ∃ table newTable, old.uidTable .every = .ok table ∧ new.uidTable .every = .ok newTable ∧
        revision = ofTables table newTable := by
  unfold between
  simp only [bind_eq_ok_iff, Except.ok.injEq]
  constructor
  · rintro ⟨table, ho, newTable, hn, rfl⟩
    exact ⟨table, newTable, ho, hn, rfl⟩
  · rintro ⟨table, newTable, ho, hn, rfl⟩
    exact ⟨table, ho, newTable, hn, rfl⟩

theorem exists_between_iff {old new : Catalog} :
    (∃ revision, between old new = .ok revision) ↔ old.Keyed ∧ new.Keyed := by
  constructor
  · rintro ⟨revision, h⟩
    obtain ⟨table, newTable, ho, hn, -⟩ := between_eq_ok_iff.mp h
    exact ⟨⟨table, ho⟩, ⟨newTable, hn⟩⟩
  · rintro ⟨⟨table, ho⟩, ⟨newTable, hn⟩⟩
    exact ⟨_, between_eq_ok_iff.mpr ⟨table, newTable, ho, hn, rfl⟩⟩

theorem ascending_ofTables {table newTable : UidTable} (h : table.Ascending)
    (hn : newTable.Ascending) :
    (ofTables table newTable).added.Ascending ∧ (ofTables table newTable).removed.Ascending ∧
      (ofTables table newTable).updated.Pairwise fun a b => a.uid.val < b.uid.val := by
  refine ⟨hn.filter _, h.filter _, hn.filterMap _ fun a b hab update hu other ho => ?_⟩
  rw [uid_of_update? hu, uid_of_update? ho]
  exact hab

end Revision

end GameCatalog
