import GameCatalog.Changelog
import GameCatalog.Proofs.Order
import GameCatalog.Proofs.Revision

/-!
# Comparing reordered catalogs

A table lists its records by uid, so it does not show in which order the catalog had them. Whether
there is a table does not depend on the order either, though the fault that is found first does.
Hence a comparison finds the same revision, and writes the same changelog, for every order of the
records on either side.
-/

namespace GameCatalog

open Json

namespace Catalog

/-- The two catalogs differ at most in the order of their records. -/
structure Reordered (catalog other : Catalog) : Prop where
  version : catalog.version = other.version
  games : catalog.games.Perm other.games
  extra : catalog.extra = other.extra

theorem Reordered.symm {catalog other : Catalog} (h : catalog.Reordered other) :
    other.Reordered catalog :=
  ⟨h.version.symm, h.games.symm, h.extra.symm⟩

theorem reordered_sortByName (catalog : Catalog) : catalog.sortByName.1.Reordered catalog where
  version := by rw [sortByName_fst]
  games := perm_sortByName catalog
  extra := by rw [sortByName_fst]

/-- Two tables of the same records are equal: both ascend by uid. -/
theorem uidTable_eq_of_perm {catalog other : Catalog} (h : catalog.games.Perm other.games)
    {coverage : Coverage} {table otherTable : UidTable}
    (hold : catalog.uidTable coverage = .ok table)
    (hother : other.uidTable coverage = .ok otherTable) : table = otherTable := by
  have keyed_perm := h.filterMap Record.keyed?
  have same_entries : table.Perm otherTable :=
    ((perm_uidTable hold).trans keyed_perm).trans (perm_uidTable hother).symm
  refine same_entries.eq_of_pairwise (fun a b _ _ hab hba => ?_) (ascending_uidTable hold)
    (ascending_uidTable hother)
  exact absurd (Int.lt_trans hab hba) (Int.lt_irrefl _)

/-- The table of a catalog is the table of its reorderings. -/
theorem uidTable_of_perm {catalog other : Catalog} (h : catalog.games.Perm other.games)
    {coverage : Coverage} {table : UidTable} (built : catalog.uidTable coverage = .ok table) :
    other.uidTable coverage = .ok table := by
  obtain ⟨otherTable, hother⟩ := exists_uidTable_of_perm h ⟨table, built⟩
  rw [uidTable_eq_of_perm h built hother]
  exact hother

end Catalog

theorem Revision.between_of_perm {old old' new new' : Catalog}
    (old_perm : old.games.Perm old'.games) (new_perm : new.games.Perm new'.games)
    {revision : Revision} (h : between old new = .ok revision) :
    between old' new' = .ok revision := by
  obtain ⟨table, newTable, hold, hnew, revision_eq⟩ := between_eq_ok_iff.mp h
  exact between_eq_ok_iff.mpr ⟨table, newTable, Catalog.uidTable_of_perm old_perm hold,
    Catalog.uidTable_of_perm new_perm hnew, revision_eq⟩

namespace Changelog

theorem between_eq_ok_iff {old new : Catalog} {written : String} :
    between old new = .ok written ↔
      ∃ revision, Revision.between old new = .ok revision ∧
        text old.version new.version revision = written := by
  simp only [between, bind_eq_ok_iff, Except.ok.injEq]

theorem between_of_reordered {old old' new new' : Catalog} (old_reordered : old.Reordered old')
    (new_reordered : new.Reordered new') {written : String} (h : between old new = .ok written) :
    between old' new' = .ok written := by
  obtain ⟨revision, compared, written_eq⟩ := between_eq_ok_iff.mp h
  have compared' := Revision.between_of_perm old_reordered.games new_reordered.games compared
  rw [old_reordered.version, new_reordered.version] at written_eq
  exact between_eq_ok_iff.mpr ⟨revision, compared', written_eq⟩

/-- Reordering the records of either catalog changes neither whether they can be compared nor the
revision nor its text, and sorting is no exception. -/
theorem between_reordered {old old' new new' : Catalog} (old_reordered : old.Reordered old')
    (new_reordered : new.Reordered new') :
    ((∃ revision, Revision.between old' new' = .ok revision) ↔
        ∃ revision, Revision.between old new = .ok revision) ∧
      (∀ revision, Revision.between old' new' = .ok revision ↔
        Revision.between old new = .ok revision) ∧
      (∀ written, between old' new' = .ok written ↔ between old new = .ok written) ∧
      ∀ written, between old.sortByName.1 new.sortByName.1 = .ok written ↔
        between old new = .ok written := by
  have old_sorted := old.reordered_sortByName
  have new_sorted := new.reordered_sortByName
  have same_revision : ∀ revision, Revision.between old' new' = .ok revision ↔
      Revision.between old new = .ok revision := fun revision =>
    ⟨Revision.between_of_perm old_reordered.symm.games new_reordered.symm.games,
      Revision.between_of_perm old_reordered.games new_reordered.games⟩
  refine ⟨exists_congr same_revision, same_revision, fun written => ⟨?_, ?_⟩,
    fun written => ⟨?_, ?_⟩⟩
  · exact between_of_reordered old_reordered.symm new_reordered.symm
  · exact between_of_reordered old_reordered new_reordered
  · exact between_of_reordered old_sorted new_sorted
  · exact between_of_reordered old_sorted.symm new_sorted.symm

/-- Both catalogs are turned round: Hex is new, Chess is gone, and Go has lost its field. -/
theorem between_reordered_hexBeforeGo :
    let one : Value := .num (.int 1 (by decide))
    let two : Value := .num (.int 2 (by decide))
    let three : Value := .num (.int 3 (by decide))
    let chess : Record := ⟨[("uid", three), ("name", .str "Chess")]⟩
    let go : Record := ⟨[("uid", one), ("name", .str "Go"), ("komi", two)]⟩
    let hex : Record := ⟨[("uid", two), ("name", .str "Hex")]⟩
    let go' : Record := ⟨[("uid", one), ("name", .str "Go")]⟩
    let old := Catalog.new ⟨2024, 1, 0⟩ [chess, go]
    let new := Catalog.new ⟨2024, 1, 1⟩ [go', hex]
    let old' := Catalog.new ⟨2024, 1, 0⟩ [go, chess]
    let new' := Catalog.new ⟨2024, 1, 1⟩ [hex, go']
    old.Reordered old' ∧ new.Reordered new' ∧
      between old' new' = .ok ("Version 2024.1.0 -> 2024.1.1\n**Games Added**\n- Hex\n\n" ++
        "**Games Removed**\n- Chess\n\n**Games Updated**\n- Go\n  - Komi Removed") := by
  intro one two three chess go hex go' old new old' new'
  have old_reordered : old.Reordered old' := ⟨rfl, .swap _ _ _, rfl⟩
  have new_reordered : new.Reordered new' := ⟨rfl, .swap _ _ _, rfl⟩
  obtain ⟨-, -, same_text, -⟩ := between_reordered old_reordered new_reordered
  have compared : between old new = .ok _ := between_eq_ok_iff.mpr ⟨_, rfl, rfl⟩
  refine ⟨old_reordered, new_reordered, (same_text _).mpr ?_⟩
  rw [compared]
  exact congrArg Except.ok (by decide +kernel)

end Changelog

end GameCatalog
