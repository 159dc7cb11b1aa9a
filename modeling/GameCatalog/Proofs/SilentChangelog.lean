import GameCatalog.Changelog
import GameCatalog.Proofs.Agreement
import Mathlib.Data.List.Perm.Basic
import Mathlib.Tactic.TFAE

/-!
# Silent changelogs

A changelog has nothing to say exactly when the revision is empty, and the revision is empty exactly
when the new catalog has the old records: in any order, and each with its fields in any order. The
text tells, whatever the labels are, since every line that is added makes it longer.
-/

namespace GameCatalog

open Json

/-- The games of the new catalog are the old ones, but for the order of the records and the order of
their fields. -/
def Catalog.SameGames (old new : Catalog) : Prop :=
  ∃ games, games.Perm old.games ∧ List.Forall₂ (fun a b => a.same b = true) games new.games

def UidTable.SameEntries (table newTable : UidTable) : Prop :=
  List.Forall₂ (fun a b => a.1 = b.1 ∧ a.2.same b.2 = true) table newTable

/-- Where two lists are related, each item of either has its partner in the other. -/
theorem exists_partners {R : α → β → Prop} {items : List α} {others : List β}
    (h : List.Forall₂ R items others) :
    (∀ a ∈ items, ∃ b ∈ others, R a b) ∧ ∀ b ∈ others, ∃ a ∈ items, R a b := by
  induction h with
  | nil => simp
  | cons first rest ih =>
      obtain ⟨left, right⟩ := ih
      constructor
      · intro a ha
        rcases List.mem_cons.mp ha with rfl | ha
        · exact ⟨_, List.mem_cons_self, first⟩
        · obtain ⟨b, hb, hr⟩ := left a ha
          exact ⟨b, List.mem_cons_of_mem _ hb, hr⟩
      · intro b hb
        rcases List.mem_cons.mp hb with rfl | hb
        · exact ⟨_, List.mem_cons_self, first⟩
        · obtain ⟨a, ha, hr⟩ := right b hb
          exact ⟨a, List.mem_cons_of_mem _ ha, hr⟩

/-! ## Empty revisions -/

namespace Revision

theorem isEmpty_iff {revision : Revision} :
    revision.isEmpty = true ↔
      revision.added = [] ∧ revision.removed = [] ∧ revision.updated = [] := by
  simp [isEmpty, and_assoc]

theorem missingFrom_eq_nil_iff {other table : UidTable} :
    missingFrom other table = [] ↔ ∀ uid ∈ table.uids, uid ∈ other.uids := by
  have uids_nil : missingFrom other table = [] ↔ (missingFrom other table).uids = [] :=
    List.map_eq_nil_iff.symm
  rw [uids_nil, List.eq_nil_iff_forall_not_mem]
  refine forall_congr' fun uid => ?_
  rw [uids_missingFrom, not_and, not_not]

section Tables

variable {old new : Catalog} {table newTable : UidTable}

theorem updated_eq_nil_iff (old_distinct : old.Distinct) (new_distinct : new.Distinct)
    (hold : old.uidTable .every = .ok table) (hnew : new.uidTable .every = .ok newTable) :
    (ofTables table newTable).updated = [] ↔
      ∀ uid a b, table.find? uid = some a → newTable.find? uid = some b → a.same b = true := by
  have ascending := Catalog.ascending_uidTable hnew
  rw [List.eq_nil_iff_forall_not_mem]
  constructor
  · intro none_updated uid a b ha hb
    rw [← Record.changes_eq_nil_iff (old_distinct.of_find? hold ha) (new_distinct.of_find? hnew hb)]
    by_contra changed
    exact none_updated ⟨uid, a, b, a.changes b⟩
      ((mem_updated_iff ascending).mpr ⟨ha, hb, rfl, changed⟩)
  · intro equal update hm
    obtain ⟨ha, hb, hchanges, changed⟩ := (mem_updated_iff ascending).mp hm
    rw [hchanges, ne_eq, Record.changes_eq_nil_iff (old_distinct.of_find? hold ha)
      (new_distinct.of_find? hnew hb)] at changed
    exact changed (equal _ _ _ ha hb)

theorem isEmpty_ofTables_iff (old_distinct : old.Distinct) (new_distinct : new.Distinct)
    (hold : old.uidTable .every = .ok table) (hnew : new.uidTable .every = .ok newTable) :
    (ofTables table newTable).isEmpty = true ↔ table.SameEntries newTable := by
  have ascending := Catalog.ascending_uidTable hold
  have ascending' := Catalog.ascending_uidTable hnew
  have added_nil : (ofTables table newTable).added = [] ↔ _ := missingFrom_eq_nil_iff
  have removed_nil : (ofTables table newTable).removed = [] ↔ _ := missingFrom_eq_nil_iff
  rw [isEmpty_iff, added_nil, removed_nil, updated_eq_nil_iff old_distinct new_distinct hold hnew]
  constructor
  · rintro ⟨held_before, held_after, equal⟩
    refine UidTable.forall₂_of_ascending Prod.fst Prod.fst And.left ascending ascending' ?_ ?_
    · rintro ⟨uid, a⟩ ha
      obtain ⟨⟨uid', b⟩, hb, rfl⟩ := List.mem_map.mp (held_after uid (List.mem_map_of_mem ha))
      exact ⟨(uid', b), hb, rfl, equal uid' a b (ascending.find?_eq_some_iff.mpr ha)
        (ascending'.find?_eq_some_iff.mpr hb)⟩
    · rintro ⟨uid, b⟩ hb
      obtain ⟨⟨uid', a⟩, ha, rfl⟩ := List.mem_map.mp (held_before uid (List.mem_map_of_mem hb))
      exact ⟨(uid', a), ha, rfl, equal uid' a b (ascending.find?_eq_some_iff.mpr ha)
        (ascending'.find?_eq_some_iff.mpr hb)⟩
  · intro same_entries
    obtain ⟨left, right⟩ := exists_partners same_entries
    refine ⟨?_, ?_, ?_⟩
    · intro uid hm
      obtain ⟨entry, hentry, rfl⟩ := List.mem_map.mp hm
      obtain ⟨partner, hpartner, uid_eq, -⟩ := right entry hentry
      exact uid_eq ▸ List.mem_map_of_mem hpartner
    · intro uid hm
      obtain ⟨entry, hentry, rfl⟩ := List.mem_map.mp hm
      obtain ⟨partner, hpartner, uid_eq, -⟩ := left entry hentry
      exact uid_eq ▸ List.mem_map_of_mem hpartner
    · intro uid a b ha hb
      obtain ⟨⟨uid', b'⟩, hb', rfl, same⟩ := left (uid, a) (ascending.find?_eq_some_iff.mp ha)
      have found := ascending'.find?_eq_some_iff.mpr hb'
      obtain rfl : b = b' := Option.some.inj (hb.symm.trans found)
      exact same

end Tables

end Revision

/-! ## The same games -/

theorem Catalog.sameGames_iff {old new : Catalog} {table newTable : UidTable}
    (old_distinct : old.Distinct) (new_distinct : new.Distinct)
    (hold : old.uidTable .every = .ok table) (hnew : new.uidTable .every = .ok newTable) :
    old.SameGames new ↔ table.SameEntries newTable := by
  constructor
  · rintro ⟨games, reordered, equal⟩
    obtain ⟨left, right⟩ := exists_partners equal
    refine UidTable.forall₂_of_ascending Prod.fst Prod.fst And.left
      (ascending_uidTable hold) (ascending_uidTable hnew) ?_ ?_
    · rintro ⟨uid, a⟩ ha
      obtain ⟨hm, hu⟩ := (mem_uidTable_iff hold).mp ha
      obtain ⟨b, hb, same⟩ := left a (reordered.mem_iff.mpr hm)
      have resolved_eq := Record.resolved?_of_same (old_distinct a hm) (new_distinct b hb) same
      exact ⟨(uid, b), (mem_uidTable_iff hnew).mpr ⟨hb, resolved_eq ▸ hu⟩, rfl, same⟩
    · rintro ⟨uid, b⟩ hb
      obtain ⟨hm, hu⟩ := (mem_uidTable_iff hnew).mp hb
      obtain ⟨a, ha, same⟩ := right b hm
      have ha' := reordered.mem_iff.mp ha
      have resolved_eq := Record.resolved?_of_same (old_distinct a ha') (new_distinct b hm) same
      exact ⟨(uid, a), (mem_uidTable_iff hold).mpr ⟨ha', resolved_eq ▸ hu⟩, rfl, same⟩
  · intro same_entries
    have records_equal : List.Forall₂ (fun a b => a.same b = true) (table.map (·.2))
        (newTable.map (·.2)) := by
      rw [List.forall₂_map_left_iff, List.forall₂_map_right_iff]
      exact same_entries.imp fun _ _ h => h.2
    have matched : Relation.Comp (List.Forall₂ fun a b : Record => a.same b = true) List.Perm
        (table.map (·.2)) new.games := ⟨_, records_equal, perm_records hnew⟩
    rw [List.forall₂_comp_perm_eq_perm_comp_forall₂] at matched
    obtain ⟨games, reordered, equal⟩ := matched
    exact ⟨games, reordered.symm.trans (perm_records hold), equal⟩

/-! ## The text -/

namespace Changelog

/-- The text of a changelog without any entry: the line of the stamps, an empty line and the heading
of the updates. -/
def silence (old new : Version) : String := s!"Version {old} -> {new}\n\n**Games Updated**"

/-- What lines after the first one add to the length of a text. -/
def extent : List String → Nat
  | [] => 0
  | line :: rest => line.length + 1 + extent rest

theorem extent_append (lines more : List String) :
    extent (lines ++ more) = extent lines + extent more := by
  induction lines with
  | nil => rw [List.nil_append, extent, Nat.zero_add]
  | cons line rest ih =>
      rw [List.cons_append, extent, extent, ih]
      omega

theorem extent_eq_zero_iff {lines : List String} : extent lines = 0 ↔ lines = [] := by
  cases lines <;> simp [extent]

theorem length_intercalate (first : String) (rest : List String) :
    ("\n".intercalate (first :: rest)).length = first.length + extent rest := by
  induction rest generalizing first with
  | nil => simp [extent]
  | cons line rest ih =>
      have newline : "\n".length = 1 := rfl
      rw [String.intercalate_cons_cons, String.length_append, String.length_append, ih,
        extent, newline]
      omega

theorem entryLines_eq_nil_iff {heading : String} {table : UidTable} :
    entryLines heading table = [] ↔ table = [] := by
  cases table <;> simp [entryLines]

theorem flatMap_updateLines_eq_nil_iff {updates : List Update} :
    updates.flatMap updateLines = [] ↔ updates = [] := by
  cases updates <;> simp [updateLines]

theorem text_eq_silence_iff {old new : Version} {revision : Revision} :
    text old new revision = silence old new ↔ revision.isEmpty = true := by
  have heading : "\n\n**Games Updated**" = "\n" ++ "\n**Games Updated**" := rfl
  have silence_eq : silence old new =
      "\n".intercalate [s!"Version {old} -> {new}", "\n**Games Updated**"] := by
    rw [String.intercalate_cons_cons, String.intercalate_singleton, String.append_assoc, ← heading]
    rfl
  rw [Revision.isEmpty_iff, silence_eq]
  constructor
  · intro h
    have length_eq := congrArg String.length h
    rw [text, lines, List.cons_append, List.cons_append, length_intercalate, length_intercalate,
      extent_append, extent_append, extent, extent, extent] at length_eq
    have no_added : extent (entryLines "**Games Added**" revision.added) = 0 := by omega
    have no_removed : extent (entryLines "\n**Games Removed**" revision.removed) = 0 := by omega
    have no_updated : extent (revision.updated.flatMap updateLines) = 0 := by omega
    exact ⟨entryLines_eq_nil_iff.mp (extent_eq_zero_iff.mp no_added),
      entryLines_eq_nil_iff.mp (extent_eq_zero_iff.mp no_removed),
      flatMap_updateLines_eq_nil_iff.mp (extent_eq_zero_iff.mp no_updated)⟩
  · rintro ⟨added, removed, updated⟩
    simp [text, lines, added, removed, updated, entryLines]

/-- A changelog is silent exactly when the revision is empty, and exactly when the games are the
same. -/
theorem between_tfae {old new : Catalog} (old_distinct : old.Distinct)
    (new_distinct : new.Distinct) (old_keyed : old.Keyed) (new_keyed : new.Keyed) :
    List.TFAE [
      ∃ revision, Revision.between old new = .ok revision ∧ revision.isEmpty = true,
      between old new = .ok (silence old.version new.version),
      old.SameGames new] := by
  obtain ⟨table, hold⟩ := old_keyed
  obtain ⟨newTable, hnew⟩ := new_keyed
  have compared : Revision.between old new = .ok (Revision.ofTables table newTable) :=
    Revision.between_eq_ok_iff.mpr ⟨table, newTable, hold, hnew, rfl⟩
  tfae_have 1 ↔ 2 := by
    rw [between, compared, ok_bind, Except.ok.injEq, text_eq_silence_iff]
    simp only [Except.ok.injEq, exists_eq_left']
  tfae_have 1 ↔ 3 := by
    rw [Catalog.sameGames_iff old_distinct new_distinct hold hnew,
      ← Revision.isEmpty_ofTables_iff old_distinct new_distinct hold hnew, compared]
    simp only [Except.ok.injEq, exists_eq_left']
  tfae_finish

/-- The new catalog has the two games in the other order, and Chess with its fields and the members
of its board the other way round. -/
theorem between_tfae_chessFirst :
    let eight : Value := .num (.int 8 (by decide))
    let two : Value := .num (.int 2 (by decide))
    let chess : Record := ⟨[("uid", two), ("board", .obj [("files", eight), ("kings", two)])]⟩
    let chess' : Record := ⟨[("board", .obj [("kings", two), ("files", eight)]), ("uid", two)]⟩
    let old := Catalog.new ⟨2024, 1, 0⟩ [Revision.weiqi, chess]
    let new := Catalog.new ⟨2024, 2, 0⟩ [chess', Revision.weiqi]
    old.Distinct ∧ new.Distinct ∧ old.Keyed ∧ new.Keyed ∧ old.SameGames new ∧
      (∃ revision, Revision.between old new = .ok revision ∧ revision.isEmpty = true) ∧
      between old new = .ok "Version 2024.1.0 -> 2024.2.0\n\n**Games Updated**" := by
  intro eight two chess chess' old new
  have old_distinct : old.Distinct := by
    simp [old, chess, eight, two, Revision.weiqi, Catalog.new, Catalog.Distinct, Record.Distinct,
      -Prod.forall]
  have new_distinct : new.Distinct := by
    simp [new, chess', eight, two, Revision.weiqi, Catalog.new, Catalog.Distinct, Record.Distinct,
      -Prod.forall]
  have same_games : old.SameGames new :=
    ⟨[chess, Revision.weiqi], .swap _ _ _, .cons rfl (.cons rfl .nil)⟩
  have text_eq : silence old.version new.version =
      "Version 2024.1.0 -> 2024.2.0\n\n**Games Updated**" := by decide +kernel
  have equivalent := between_tfae old_distinct new_distinct ⟨_, rfl⟩ ⟨_, rfl⟩
  exact ⟨old_distinct, new_distinct, ⟨_, rfl⟩, ⟨_, rfl⟩, same_games,
    (equivalent.out 2 0).mp same_games, text_eq ▸ (equivalent.out 2 1).mp same_games⟩

end Changelog

end GameCatalog
