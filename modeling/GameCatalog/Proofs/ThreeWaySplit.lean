import GameCatalog.Proofs.FieldChanges
import GameCatalog.Proofs.IntermediateRevision
import GameCatalog.Proofs.TableFaults

/-!
# The three parts of a revision

A revision puts each uid of its two catalogs under one heading at most: what only the new one has
came, what only the old one has went, and what both have is updated where the two records are not
equal. The uid itself is never told of, since it has one form as a value.
-/

namespace GameCatalog

open Json

theorem Record.agreesAt_uid {old new : Record} {uid : Uid} (held : old.uid = .ok (.resolved uid))
    (given : new.uid = .ok (.resolved uid)) : old.agreesAt new "uid" = true := by
  simp [agreesAt, get?_of_uid_resolved held, get?_of_uid_resolved given, Value.same,
    Number.same_refl]

namespace Revision

/-- The revision splits the uids of two catalogs: those of one only and those whose records are not
equal, each part in ascending order. -/
structure Splits (revision : Revision) (old new : Catalog) : Prop where
  added : ∀ uid record, (uid, record) ∈ revision.added ↔
    new.Holds uid record ∧ ∀ other, ¬old.Holds uid other
  removed : ∀ uid record, (uid, record) ∈ revision.removed ↔
    old.Holds uid record ∧ ∀ other, ¬new.Holds uid other
  updated : ∀ update, update ∈ revision.updated ↔
    old.Holds update.uid update.old ∧ new.Holds update.uid update.new ∧
      ¬update.old.Equal update.new ∧ update.changes = update.old.changes update.new
  described : ∀ update ∈ revision.updated,
    update.changes ≠ [] ∧ ∀ change ∈ update.changes, change.field ≠ "uid"
  added_ascending : revision.added.Ascending
  removed_ascending : revision.removed.Ascending
  updated_ascending : revision.updated.Pairwise fun a b => a.uid.val < b.uid.val
  apart : (revision.added.uids ++ revision.removed.uids ++
    revision.updated.map Update.uid).Nodup

variable {old new : Catalog} {table newTable : UidTable}

theorem mem_missingFrom_iff {first second : Catalog} {coverage : Coverage}
    (hfirst : first.uidTable coverage = .ok table)
    (hsecond : second.uidTable coverage = .ok newTable) {uid : Uid} {record : Record} :
    (uid, record) ∈ missingFrom table newTable ↔
      second.Holds uid record ∧ ∀ other, ¬first.Holds uid other := by
  have lists := Catalog.lists_uidTable hfirst
  have lists' := Catalog.lists_uidTable hsecond
  rw [missingFrom, List.mem_filter, ← lists'.ascending.find?_eq_some_iff, lists'.finds,
    Option.isNone_iff_eq_none, Option.eq_none_iff_forall_ne_some]
  simp only [ne_eq, lists.finds]

theorem mem_updated_iff_holds (old_distinct : old.Distinct) (new_distinct : new.Distinct)
    (hold : old.uidTable .every = .ok table) (hnew : new.uidTable .every = .ok newTable)
    {update : Update} :
    update ∈ (ofTables table newTable).updated ↔
      old.Holds update.uid update.old ∧ new.Holds update.uid update.new ∧
        ¬update.old.Equal update.new ∧ update.changes = update.old.changes update.new := by
  rw [mem_updated_iff (Catalog.ascending_uidTable hnew), (Catalog.lists_uidTable hold).finds,
    (Catalog.lists_uidTable hnew).finds]
  refine and_congr_right fun held => and_congr_right fun given => ?_
  have nil_iff := Record.changes_eq_nil_iff (old_distinct _ held.1) (new_distinct _ given.1)
  rw [Record.same_iff_equal (old_distinct _ held.1) (new_distinct _ given.1)] at nil_iff
  rw [and_comm, ← nil_iff]
  refine and_congr_left fun changes_eq => ?_
  rw [changes_eq]

theorem nodup_uids_ofTables (ascending : table.Ascending) (ascending' : newTable.Ascending) :
    ((ofTables table newTable).added.uids ++ (ofTables table newTable).removed.uids ++
      (ofTables table newTable).updated.map Update.uid).Nodup := by
  obtain ⟨added, removed, updated⟩ := ascending_ofTables ascending ascending'
  have updated_common : ∀ uid ∈ (ofTables table newTable).updated.map Update.uid,
      uid ∈ table.uids ∧ uid ∈ newTable.uids := by
    intro uid hm
    obtain ⟨update, hu, rfl⟩ := List.mem_map.mp hm
    obtain ⟨held, given, -⟩ := (mem_updated_iff ascending').mp hu
    exact ⟨UidTable.mem_uids_of_find? held, UidTable.mem_uids_of_find? given⟩
  rw [List.nodup_append, List.nodup_append]
  refine ⟨⟨added.nodup_uids, removed.nodup_uids, ?_⟩, UidTable.nodup_map_of_ascending updated, ?_⟩
  · rintro uid came _ went rfl
    exact (uids_missingFrom.mp came).2 (uids_missingFrom.mp went).1
  · rintro uid hm _ changed rfl
    obtain ⟨held, given⟩ := updated_common uid changed
    rcases List.mem_append.mp hm with came | went
    · exact (uids_missingFrom.mp came).2 held
    · exact (uids_missingFrom.mp went).2 given

/-- Two catalogs whose records all have uids of their own have a revision, and it splits their
uids. -/
theorem between_splits (old_distinct : old.Distinct) (new_distinct : new.Distinct)
    (old_keyed : old.Keyed) (new_keyed : new.Keyed) :
    ∃ revision, between old new = .ok revision ∧ revision.Splits old new := by
  obtain ⟨table, hold⟩ := old_keyed
  obtain ⟨newTable, hnew⟩ := new_keyed
  have ascending := Catalog.ascending_uidTable hold
  have ascending' := Catalog.ascending_uidTable hnew
  obtain ⟨added, removed, updated⟩ := ascending_ofTables ascending ascending'
  refine ⟨ofTables table newTable, between_eq_ok_iff.mpr ⟨table, newTable, hold, hnew, rfl⟩,
    { added := fun _ _ => mem_missingFrom_iff hold hnew
      removed := fun _ _ => mem_missingFrom_iff hnew hold
      updated := fun _ => mem_updated_iff_holds old_distinct new_distinct hold hnew
      described := fun update hm => ⟨((mem_updated_iff ascending').mp hm).2.2.2, ?_⟩
      added_ascending := added
      removed_ascending := removed
      updated_ascending := updated
      apart := nodup_uids_ofTables ascending ascending' }⟩
  intro change hc about_uid
  obtain ⟨held, given, -, changes_eq⟩ :=
    (mem_updated_iff_holds old_distinct new_distinct hold hnew).mp hm
  have names_nodup := (new_distinct _ given.1).names_nodup
  have differs := (Record.exists_change_iff names_nodup).mp ⟨change, changes_eq ▸ hc, about_uid⟩
  rw [Record.agreesAt_uid held.2 given.2] at differs
  cases differs

/-- Go has another size, Nim only has the members of its size in another order. The new games are
in ascending order although the catalog has them the other way round. -/
theorem between_splits_turnedNim :
    let go : Uid := ⟨7, by decide⟩
    let nim : Uid := ⟨-1, by decide⟩
    let hex : Uid := ⟨9, by decide⟩
    let chess : Uid := ⟨8, by decide⟩
    let morris : Uid := ⟨-9, by decide⟩
    let rows : String × Value := ("rows", .num (.int 3 (by decide)))
    let heaps : String × Value := ("heaps", .null)
    let old := Catalog.new ⟨2024, 1, 0⟩
      [sized hex "Hex" .null, sized go "Go" (.bool false), sized nim "Nim" (.obj [rows, heaps])]
    let new := Catalog.new ⟨2024, 2, 0⟩
      [sized chess "Chess" .null, sized nim "Nim" (.obj [heaps, rows]),
        sized morris "Morris" .null, sized go "Go" (.bool true)]
    old.Distinct ∧ new.Distinct ∧ old.Keyed ∧ new.Keyed ∧
      ∃ revision, between old new = .ok revision ∧ revision.Splits old new ∧
        revision.added.uids = [morris, chess] ∧ revision.removed.uids = [hex] ∧
        revision.updated.map Update.uid = [go] := by
  intro go nim hex chess morris rows heaps old new
  have old_distinct : old.Distinct := List.forall_mem_cons.mpr
    ⟨distinct_sized _ _ .null, List.forall_mem_cons.mpr
      ⟨distinct_sized _ _ (.bool _), List.forall_mem_singleton.mpr
        (distinct_sized _ _ (by simp [rows, heaps]))⟩⟩
  have new_distinct : new.Distinct := List.forall_mem_cons.mpr
    ⟨distinct_sized _ _ .null, List.forall_mem_cons.mpr
      ⟨distinct_sized _ _ (by simp [rows, heaps]), List.forall_mem_cons.mpr
        ⟨distinct_sized _ _ .null, List.forall_mem_singleton.mpr (distinct_sized _ _ (.bool _))⟩⟩⟩
  have old_keyed : old.Keyed := ⟨_, rfl⟩
  have new_keyed : new.Keyed := ⟨_, rfl⟩
  obtain ⟨revision, compared, splits⟩ :=
    between_splits old_distinct new_distinct old_keyed new_keyed
  have revision_eq : revision = ⟨[(morris, sized morris "Morris" .null),
      (chess, sized chess "Chess" .null)], [(hex, sized hex "Hex" .null)],
      [⟨go, sized go "Go" (.bool false), sized go "Go" (.bool true), [.changed "size"]⟩]⟩ :=
    Except.ok.inj (compared.symm.trans rfl)
  subst revision_eq
  exact ⟨old_distinct, new_distinct, old_keyed, new_keyed, _, compared, splits, rfl, rfl, rfl⟩

end Revision

end GameCatalog
