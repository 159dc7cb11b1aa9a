import GameCatalog.Proofs.InvalidUid
import GameCatalog.Proofs.Revision
import Mathlib.Data.List.Induction

/-!
# What stops the building of a table

A record can join the table of those before it unless its uid is invalid, missing where all records
need one, or the uid of an earlier record. The building stops at the first record that cannot, and
the fault names what is wrong with it; the earlier record whose uid it repeats is the only one that
has it. Where every record can join, the table lists the records that have a uid, and it lists no
others.
-/

namespace GameCatalog

open Json

namespace Record

/-- The record can be added to a table of those before it. -/
structure Joins (coverage : Coverage) (before : List Record) (record : Record) : Prop where
  valid : ∀ value, ¬record.HoldsInvalid value
  covered : coverage = .every → ¬record.LacksUid
  new : ∀ uid, record.resolved? = some uid → ∀ other ∈ before, other.resolved? ≠ some uid

/-- The fault of a record that cannot be added to a table of those before it. -/
inductive FaultBehind (coverage : Coverage) (before : List Record) (record : Record) :
    RecordFault → Prop where
  | invalid {value : Value} (holds : record.HoldsInvalid value) :
      FaultBehind coverage before record (record.invalidUid value)
  | missing (required : coverage = .every) (lacks : record.LacksUid) :
      FaultBehind coverage before record (.missingUid record.label)
  | shared {uid : Uid} {first : Record} (resolved : record.resolved? = some uid)
      (holder : before.filter (·.resolved? = some uid) = [first]) :
      FaultBehind coverage before record (.sharedUid uid first.label record.label)

/-- Where resolved uids are distinct, the first record that has one is the only one. -/
theorem filter_resolved_eq_singleton_iff {records : List Record}
    (nodup : (records.filterMap resolved?).Nodup) {uid : Uid} {first : Record} :
    records.filter (·.resolved? = some uid) = [first] ↔
      records.find? (·.resolved? = some uid) = some first := by
  have at_most_one : (records.filter (·.resolved? = some uid)).length ≤ 1 := by
    have counted := List.nodup_iff_count_le_one.mp nodup uid
    rw [List.count, List.countP_filterMap] at counted
    rw [← List.countP_eq_length_filter]
    refine Nat.le_trans (Nat.le_of_eq (List.countP_congr fun record _ => ?_)) counted
    cases record.resolved? <;> simp
  rw [← List.head?_filter]
  generalize records.filter (·.resolved? = some uid) = holders at at_most_one ⊢
  cases holders with
  | nil => simp
  | cons holder others =>
      cases others with
      | nil => simp
      | cons other more => simp at at_most_one

end Record

namespace Catalog

variable {coverage : Coverage} {table : UidTable} {before records : List Record}
  {record last : Record} {fault : RecordFault}

theorem tabulate_append (coverage : Coverage) (table : UidTable) (before rest : List Record) :
    tabulate coverage table (before ++ rest) =
      tabulate coverage table before >>= fun later => tabulate coverage later rest := by
  induction before generalizing table with
  | nil => rfl
  | cons record others ih =>
      simp only [List.cons_append, tabulate]
      split
      · rfl
      · split
        · rfl
        · exact ih _
      · split
        · rfl
        · exact ih _

/-- Every record can join those before it. -/
def Joining (coverage : Coverage) (records : List Record) : Prop :=
  ∀ before record after, records = before ++ record :: after → record.Joins coverage before

/-- The fault of the first record that cannot join those before it. -/
def FirstFault (coverage : Coverage) (records : List Record) (fault : RecordFault) : Prop :=
  ∃ before record after, records = before ++ record :: after ∧ Joining coverage before ∧
    record.FaultBehind coverage before fault

theorem append_singleton_eq_iff {after : List Record} :
    records ++ [last] = before ++ record :: after ↔
      (∃ rest, records = before ++ record :: rest ∧ after = rest ++ [last]) ∨
        records = before ∧ last = record ∧ after = [] := by
  constructor
  · intro h
    rcases after.eq_nil_or_concat with rfl | ⟨rest, final, rfl⟩
    · obtain ⟨rfl, tail⟩ := List.append_inj' h rfl
      exact .inr ⟨rfl, List.singleton_inj.mp tail, rfl⟩
    · rw [List.concat_eq_append, ← List.cons_append, ← List.append_assoc] at h
      obtain ⟨rfl, tail⟩ := List.append_inj' h rfl
      exact .inl ⟨rest, rfl, by rw [List.concat_eq_append, tail]⟩
  · rintro (⟨rest, rfl, rfl⟩ | ⟨rfl, rfl, rfl⟩)
    · rw [List.append_assoc, List.cons_append]
    · rfl

theorem joining_append_iff :
    Joining coverage (records ++ [last]) ↔
      Joining coverage records ∧ last.Joins coverage records := by
  constructor
  · intro h
    refine ⟨fun before record after records_eq => ?_, h records last [] rfl⟩
    exact h before record (after ++ [last])
      (by rw [records_eq, List.append_assoc, List.cons_append])
  · rintro ⟨earlier, joins⟩ before record after records_eq
    rcases append_singleton_eq_iff.mp records_eq with ⟨rest, split, -⟩ | ⟨rfl, rfl, -⟩
    · exact earlier before record rest split
    · exact joins

theorem firstFault_append_iff :
    FirstFault coverage (records ++ [last]) fault ↔
      FirstFault coverage records fault ∨
        Joining coverage records ∧ last.FaultBehind coverage records fault := by
  constructor
  · rintro ⟨before, record, after, records_eq, joining, behind⟩
    rcases append_singleton_eq_iff.mp records_eq with ⟨rest, split, -⟩ | ⟨rfl, rfl, -⟩
    · exact .inl ⟨before, record, rest, split, joining, behind⟩
    · exact .inr ⟨joining, behind⟩
  · rintro (⟨before, record, rest, rfl, joining, behind⟩ | ⟨joining, behind⟩)
    · exact ⟨before, record, rest ++ [last], by rw [List.append_assoc, List.cons_append],
        joining, behind⟩
    · exact ⟨records, last, [], rfl, joining, behind⟩

/-! ## One more record -/

/-- What the table of the records before finds is the one record that has the uid. -/
theorem find?_eq_some_iff_filter (h : tabulate coverage [] before = .ok table) {uid : Uid}
    {first : Record} :
    table.find? uid = some first ↔ before.filter (·.resolved? = some uid) = [first] := by
  rw [find?_tabulate h, Record.filter_resolved_eq_singleton_iff (nodup_resolved_of_tabulate h)]
  rfl

theorem find?_eq_none_iff_forall (h : tabulate coverage [] before = .ok table) {uid : Uid} :
    table.find? uid = none ↔ ∀ other ∈ before, other.resolved? ≠ some uid := by
  rw [find?_tabulate h]
  simp [UidTable.find?]

theorem faultBehind_iff (h : tabulate coverage [] before = .ok table) :
    record.FaultBehind coverage before fault ↔ tabulate coverage table [record] = .error fault := by
  constructor
  · rintro (⟨holds⟩ | ⟨rfl, lacks⟩ | ⟨resolved, holder⟩)
    · simp [tabulate, Record.uid_eq_error_iff.mpr ⟨_, holds, rfl⟩]
    · obtain ⟨field, state, unkeyed⟩ := Record.lacksUid_iff.mp lacks
      cases field with
      | resolved uid => cases unkeyed
      | absent | unresolved => simp [tabulate, state]
    · simp [tabulate, Record.uid_eq_resolved_iff.mpr resolved,
        (find?_eq_some_iff_filter h).mpr holder]
  · intro failed
    unfold tabulate at failed
    split at failed
    next found state =>
      cases failed
      obtain ⟨value, holds, rfl⟩ := Record.uid_eq_error_iff.mp state
      exact .invalid holds
    next uid state =>
      split at failed
      next first found =>
        cases failed
        exact .shared (Record.uid_eq_resolved_iff.mp state) ((find?_eq_some_iff_filter h).mp found)
      next => cases failed
    next field unkeyed state =>
      have lacks : record.LacksUid := by
        refine Record.lacksUid_iff.mpr ⟨field, state, ?_⟩
        cases field with
        | resolved uid => exact absurd rfl (unkeyed uid)
        | absent | unresolved => rfl
      cases coverage with
      | every =>
          cases failed
          exact .missing rfl lacks
      | resolved => cases failed

theorem joins_iff_forall (h : tabulate coverage [] before = .ok table) :
    record.Joins coverage before ↔ ∀ fault, ¬record.FaultBehind coverage before fault := by
  constructor
  · rintro joins fault (⟨holds⟩ | ⟨required, lacks⟩ | ⟨resolved, holder⟩)
    · exact joins.valid _ holds
    · exact joins.covered required lacks
    · obtain ⟨held, same⟩ := List.mem_filter.mp (holder ▸ List.mem_singleton_self _)
      exact joins.new _ resolved _ held (by simpa using same)
  · intro faultless
    refine ⟨fun value holds => faultless _ (.invalid holds),
      fun required lacks => faultless _ (.missing required lacks), fun uid resolved => ?_⟩
    rw [← find?_eq_none_iff_forall h, Option.eq_none_iff_forall_ne_some]
    intro first found
    exact faultless _ (.shared resolved ((find?_eq_some_iff_filter h).mp found))

theorem joins_iff (h : tabulate coverage [] before = .ok table) :
    record.Joins coverage before ↔ ∃ later, tabulate coverage table [record] = .ok later := by
  rw [joins_iff_forall h]
  simp only [faultBehind_iff h]
  cases tabulate coverage table [record] <;> simp

/-! ## All records -/

theorem joining_iff :
    Joining coverage records ↔ ∃ table, tabulate coverage [] records = .ok table := by
  induction records using List.reverseRecOn with
  | nil => simp [Joining, tabulate]
  | append_singleton before last ih =>
      simp only [joining_append_iff, tabulate_append, bind_eq_ok_iff]
      constructor
      · rintro ⟨joining, joins⟩
        obtain ⟨table, h⟩ := ih.mp joining
        obtain ⟨later, hlast⟩ := (joins_iff h).mp joins
        exact ⟨later, table, h, hlast⟩
      · rintro ⟨later, table, h, hlast⟩
        exact ⟨ih.mpr ⟨table, h⟩, (joins_iff h).mpr ⟨later, hlast⟩⟩

theorem firstFault_iff :
    FirstFault coverage records fault ↔ tabulate coverage [] records = .error fault := by
  induction records using List.reverseRecOn with
  | nil => simp [FirstFault, tabulate]
  | append_singleton before last ih =>
      rw [firstFault_append_iff, tabulate_append, bind_eq_error_iff, ih, joining_iff]
      refine or_congr_right ⟨?_, ?_⟩
      · rintro ⟨⟨table, h⟩, behind⟩
        exact ⟨table, h, (faultBehind_iff h).mp behind⟩
      · rintro ⟨table, h, hlast⟩
        exact ⟨⟨table, h⟩, (faultBehind_iff h).mpr hlast⟩

theorem uidTable_eq_error_iff {catalog : Catalog} :
    catalog.uidTable coverage = .error fault ↔ FirstFault coverage catalog.games fault :=
  firstFault_iff.symm

theorem exists_uidTable_every_iff {catalog : Catalog} :
    (∃ table, catalog.uidTable .every = .ok table) ↔
      (∀ record ∈ catalog.games, ∃ uid, record.uid = .ok (.resolved uid)) ∧
        (catalog.games.filterMap Record.resolved?).Nodup := by
  simp only [exists_uidTable_iff, Record.uid_eq_resolved_iff, forall_prop_of_true]
  refine and_iff_right_of_imp ?_
  rintro ⟨resolved, -⟩ record hm
  obtain ⟨uid, hu⟩ := resolved record hm
  exact ⟨_, Record.uid_eq_resolved_iff.mpr hu⟩

theorem exists_uidTable_resolved_iff {catalog : Catalog} :
    (∃ table, catalog.uidTable .resolved = .ok table) ↔
      (∀ record ∈ catalog.games, ∀ value, ¬record.HoldsInvalid value) ∧
        (catalog.games.filterMap Record.resolved?).Nodup := by
  simp [exists_uidTable_iff, Record.exists_uid_iff]

end Catalog

def Catalog.Holds (catalog : Catalog) (uid : Uid) (record : Record) : Prop :=
  record ∈ catalog.games ∧ record.uid = .ok (.resolved uid)

/-- The table finds the records of a catalog by their uids, and has its entries in ascending order,
one for each record that has a uid. -/
structure UidTable.Lists (table : UidTable) (catalog : Catalog) : Prop where
  finds : ∀ uid record, table.find? uid = some record ↔ catalog.Holds uid record
  ascending : table.Ascending
  entries : table.Perm (catalog.games.filterMap Record.keyed?)

theorem Catalog.lists_uidTable {catalog : Catalog} {coverage : Coverage} {table : UidTable}
    (h : catalog.uidTable coverage = .ok table) : table.Lists catalog where
  finds uid record := by
    rw [(ascending_uidTable h).find?_eq_some_iff, mem_uidTable_iff h, Holds,
      Record.uid_eq_resolved_iff]
  ascending := ascending_uidTable h
  entries := perm_uidTable h

theorem Revision.between_eq_error_iff {old new : Catalog} {fault : RecordFault} :
    between old new = .error fault ↔
      old.uidTable .every = .error fault ∨
        (∃ table, old.uidTable .every = .ok table) ∧ new.uidTable .every = .error fault := by
  rw [between, bind_eq_error_iff]
  refine or_congr_right ⟨?_, ?_⟩
  · rintro ⟨table, h, failed⟩
    rcases bind_eq_error_iff.mp failed with failed | ⟨newTable, -, impossible⟩
    · exact ⟨⟨table, h⟩, failed⟩
    · cases impossible
  · rintro ⟨⟨table, h⟩, failed⟩
    exact ⟨table, h, bind_eq_error_iff.mpr (.inl failed)⟩

namespace Catalog

/-- The table of all records exists exactly when each has a uid of its own, and the table of the
resolved ones when no uid is invalid and the resolved ones are distinct. A table lists these records
by uid; where there is none, the fault is that of the first record that cannot join those before it,
and between two catalogs the old one's fault comes first. -/
theorem uidTable_isExact (catalog : Catalog) :
    ((∃ table, catalog.uidTable .every = .ok table) ↔
      (∀ record ∈ catalog.games, ∃ uid, record.uid = .ok (.resolved uid)) ∧
        (catalog.games.filterMap Record.resolved?).Nodup) ∧
    ((∃ table, catalog.uidTable .resolved = .ok table) ↔
      (∀ record ∈ catalog.games, ∀ value, ¬record.HoldsInvalid value) ∧
        (catalog.games.filterMap Record.resolved?).Nodup) ∧
    (∀ coverage table, catalog.uidTable coverage = .ok table → table.Lists catalog) ∧
    (∀ coverage fault, catalog.uidTable coverage = .error fault ↔
      FirstFault coverage catalog.games fault) ∧
    ∀ new fault, Revision.between catalog new = .error fault ↔
      catalog.uidTable .every = .error fault ∨
        (∃ table, catalog.uidTable .every = .ok table) ∧ new.uidTable .every = .error fault :=
  ⟨exists_uidTable_every_iff, exists_uidTable_resolved_iff, fun _ _ => lists_uidTable,
    fun _ _ => uidTable_eq_error_iff, fun _ _ => Revision.between_eq_error_iff⟩

/-- Go, Chess without a uid, a record without a name that has the uid of Go, and one whose uid is
a text. -/
def goTwice : Catalog :=
  .new ⟨2024, 1, 0⟩ [.named "Go" (some ⟨17, by decide⟩), .named "Chess" none,
    ⟨[("uid", .num (.int 17 (by decide)))]⟩, ⟨[("uid", .str "eight")]⟩]

/-- The table of all records stops at Chess, the one of resolved records at the second record with
the uid of Go. With Hex in its place the latter lists Hex before Go. -/
theorem uidTable_isExact_goTwice :
    let go : Uid := ⟨17, by decide⟩
    let hex : Uid := ⟨-3, by decide⟩
    let textOnly := Catalog.new ⟨2024, 2, 0⟩ [⟨[("uid", .str "eight")]⟩]
    let listed := Catalog.new ⟨2024, 3, 0⟩
      [.named "Go" (some go), .named "Chess" none, .named "Hex" (some hex)]
    FirstFault .every goTwice.games (.missingUid "Chess") ∧
      FirstFault .resolved goTwice.games (.sharedUid go "Go" "uid 17") ∧
      Revision.between goTwice textOnly = .error (.missingUid "Chess") ∧
      ∃ table, listed.uidTable .resolved = .ok table ∧ table.uids = [hex, go] ∧
        table.Lists listed := by
  intro go hex textOnly listed
  obtain ⟨-, -, -, faults, compared⟩ := uidTable_isExact goTwice
  obtain ⟨-, -, lists, -, -⟩ := uidTable_isExact listed
  have unkeyed : goTwice.uidTable .every = .error (.missingUid "Chess") := rfl
  have repeated : goTwice.uidTable .resolved = .error (.sharedUid go "Go" "uid 17") := rfl
  exact ⟨(faults _ _).mp unkeyed, (faults _ _).mp repeated, (compared _ _).mpr (.inl unkeyed),
    _, rfl, rfl, lists .resolved _ rfl⟩

end Catalog

end GameCatalog
