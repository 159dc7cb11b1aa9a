import GameCatalog.Catalog.UidTable
import GameCatalog.Proofs.Record
import Mathlib.Data.List.Forall2
import Mathlib.Data.List.Nodup

/-!
# What a table of uids holds

A table that was built finds the first record of each resolved uid, and a rewriting of records that
keeps valid uids is a rewriting of the table. A table of all records is also the table of those
that have a resolved uid. A table has no records but those of its catalog, each as often as there.
-/

namespace GameCatalog

namespace Record

def keyed? (record : Record) : Option (Uid × Record) :=
  record.resolved?.map fun uid => (uid, record)

theorem keyed?_of_resolved {record : Record} {uid : Uid} (h : record.resolved? = some uid) :
    record.keyed? = some (uid, record) := by
  simp [keyed?, h]

theorem keyed?_eq_none {record : Record} (h : record.resolved? = none) :
    record.keyed? = none := by
  simp [keyed?, h]

theorem keyed?_eq_some_iff {source record : Record} {uid : Uid} :
    source.keyed? = some (uid, record) ↔ source.resolved? = some uid ∧ source = record := by
  simp [keyed?]

theorem map_fst_keyed (records : List Record) :
    (records.filterMap keyed?).map (·.1) = records.filterMap resolved? := by
  rw [List.map_filterMap]
  exact List.filterMap_congr fun record _ => by simp [keyed?, Function.comp_def]

end Record

namespace UidTable

def uids (table : UidTable) : List Uid := table.map (·.1)

theorem find?_eq_none_iff {uid : Uid} {table : UidTable} :
    table.find? uid = none ↔ uid ∉ table.uids := by
  induction table with
  | nil => simp [find?, uids]
  | cons entry rest ih =>
      obtain ⟨key, record⟩ := entry
      by_cases h : key = uid
      · simp [find?, uids, h]
      · have h' : uid ≠ key := fun e => h e.symm
        simpa [find?, uids, h, h'] using ih

theorem mem_uids_of_find? {uid : Uid} {record : Record} {table : UidTable}
    (h : table.find? uid = some record) : uid ∈ table.uids := by
  by_contra absent
  rw [find?_eq_none_iff.mpr absent] at h
  cases h

def mapRecords (rewrite : Record → Record) (table : UidTable) : UidTable :=
  table.map fun entry => (entry.1, rewrite entry.2)

theorem find?_mapRecords (rewrite : Record → Record) (uid : Uid) (table : UidTable) :
    (table.mapRecords rewrite).find? uid = (table.find? uid).map rewrite := by
  induction table with
  | nil => rfl
  | cons entry rest ih =>
      obtain ⟨key, record⟩ := entry
      by_cases h : key = uid
      · simp [mapRecords, find?, h]
      · simpa [mapRecords, find?, h] using ih

theorem insert_mapRecords (rewrite : Record → Record) (uid : Uid) (record : Record)
    (table : UidTable) :
    (table.mapRecords rewrite).insert uid (rewrite record) =
      (table.insert uid record).mapRecords rewrite := by
  induction table with
  | nil => rfl
  | cons entry rest ih =>
      obtain ⟨key, held⟩ := entry
      by_cases hlt : uid.val < key.val
      · simp [mapRecords, insert, hlt]
      · by_cases he : uid = key
        · simp [mapRecords, insert, he]
        · simpa [mapRecords, insert, hlt, he] using ih

theorem mem_insert {uid : Uid} {record : Record} {table : UidTable} {entry : Uid × Record}
    (h : entry ∈ table.insert uid record) : entry = (uid, record) ∨ entry ∈ table := by
  induction table with
  | nil => exact .inl (by simpa [insert] using h)
  | cons held rest ih =>
      obtain ⟨key, other⟩ := held
      simp only [insert] at h
      split at h
      · exact List.mem_cons.mp h
      · split at h
        · rcases List.mem_cons.mp h with h | h
          · exact .inl h
          · exact .inr (List.mem_cons_of_mem _ h)
        · rcases List.mem_cons.mp h with h | h
          · exact .inr (h ▸ List.mem_cons_self)
          · exact (ih h).imp id (List.mem_cons_of_mem _)

theorem perm_insert {uid : Uid} {record : Record} {table : UidTable}
    (h : table.find? uid = none) : (table.insert uid record).Perm ((uid, record) :: table) := by
  induction table with
  | nil => exact .refl _
  | cons held rest ih =>
      obtain ⟨key, other⟩ := held
      by_cases hk : key = uid
      · simp [find?, hk] at h
      · simp only [find?, hk, if_false] at h
        by_cases hlt : uid.val < key.val
        · simp [insert, hlt]
        · simp only [insert, hlt, Ne.symm hk, if_false]
          exact ((ih h).cons (key, other)).trans (.swap _ _ _)

def Ascending (table : UidTable) : Prop := table.Pairwise fun a b => a.1.val < b.1.val

theorem Ascending.insert {table : UidTable} (h : table.Ascending) (uid : Uid) (record : Record) :
    Ascending (table.insert uid record) := by
  induction table with
  | nil => exact List.pairwise_singleton _ _
  | cons held rest ih =>
      obtain ⟨key, other⟩ := held
      obtain ⟨hkey, hrest⟩ := List.pairwise_cons.mp h
      simp only [UidTable.insert]
      split
      next hlt =>
        refine List.pairwise_cons.mpr ⟨fun entry hm => ?_, h⟩
        rcases List.mem_cons.mp hm with rfl | hm
        · exact hlt
        · exact Int.lt_trans hlt (hkey entry hm)
      next hlt =>
        split
        next he =>
          subst he
          exact List.pairwise_cons.mpr ⟨hkey, hrest⟩
        next he =>
          have hgt : key.val < uid.val := by
            have hne : uid.val ≠ key.val := fun e => he (Uid.ext e)
            omega
          refine List.pairwise_cons.mpr ⟨fun entry hm => ?_, ih hrest⟩
          rcases mem_insert hm with rfl | hm
          · exact hgt
          · exact hkey entry hm

/-- Where uids ascend none of them is repeated. -/
theorem nodup_map_of_ascending {α : Type} {uidOf : α → Uid} {items : List α}
    (h : items.Pairwise fun a b => (uidOf a).val < (uidOf b).val) :
    (items.map uidOf).Nodup := by
  rw [List.nodup_iff_pairwise_ne, List.pairwise_map]
  refine h.imp fun hlt he => ?_
  rw [he] at hlt
  exact Int.lt_irrefl _ hlt

theorem Ascending.nodup_uids {table : UidTable} (h : table.Ascending) : table.uids.Nodup :=
  nodup_map_of_ascending h

theorem Ascending.find?_eq_some_iff {table : UidTable} (h : table.Ascending) {uid : Uid}
    {record : Record} : table.find? uid = some record ↔ (uid, record) ∈ table := by
  induction table with
  | nil => simp [find?]
  | cons held rest ih =>
      obtain ⟨key, other⟩ := held
      obtain ⟨hkey, hrest⟩ := List.pairwise_cons.mp h
      by_cases hk : key = uid
      · subst hk
        have hnot : (key, record) ∉ rest := fun hm => Int.lt_irrefl _ (hkey (key, record) hm)
        simp [find?, hnot, eq_comm]
      · simp [find?, hk, Ne.symm hk, ih hrest]

/-- Lists that ascend by uid pair off when every item of either has its partner, of the same uid, in
the other. -/
theorem forall₂_of_ascending {R : α → β → Prop} (key : α → Uid) (key' : β → Uid)
    (key_eq : ∀ {a b}, R a b → key a = key' b) {items : List α} {others : List β}
    (h : items.Pairwise fun a b => (key a).val < (key b).val)
    (h' : others.Pairwise fun a b => (key' a).val < (key' b).val)
    (left : ∀ a ∈ items, ∃ b ∈ others, R a b) (right : ∀ b ∈ others, ∃ a ∈ items, R a b) :
    List.Forall₂ R items others := by
  induction items generalizing others with
  | nil =>
      cases others with
      | nil => exact .nil
      | cons b rest =>
          obtain ⟨a, ha, -⟩ := right b List.mem_cons_self
          cases ha
  | cons a rest ih =>
      cases others with
      | nil =>
          obtain ⟨b, hb, -⟩ := left a List.mem_cons_self
          cases hb
      | cons b later =>
          obtain ⟨hfirst, hrest⟩ := List.pairwise_cons.mp h
          obtain ⟨hfirst', hrest'⟩ := List.pairwise_cons.mp h'
          have partners : R a b := by
            obtain ⟨b', hb', hr⟩ := left a List.mem_cons_self
            obtain ⟨a', ha', hr'⟩ := right b List.mem_cons_self
            rcases List.mem_cons.mp hb' with rfl | hb'
            · exact hr
            rcases List.mem_cons.mp ha' with rfl | ha'
            · exact hr'
            have hlt := hfirst a' ha'
            have hlt' := hfirst' b' hb'
            rw [key_eq hr'] at hlt
            rw [← key_eq hr] at hlt'
            omega
          refine .cons partners (ih hrest hrest' ?_ ?_)
          · intro x hx
            obtain ⟨y, hy, hr⟩ := left x (List.mem_cons_of_mem _ hx)
            refine ⟨y, (List.mem_cons.mp hy).resolve_left ?_, hr⟩
            rintro rfl
            have hlt := hfirst x hx
            rw [key_eq partners, key_eq hr] at hlt
            omega
          · intro y hy
            obtain ⟨x, hx, hr⟩ := right y (List.mem_cons_of_mem _ hy)
            refine ⟨x, (List.mem_cons.mp hx).resolve_left ?_, hr⟩
            rintro rfl
            have hlt := hfirst' y hy
            rw [← key_eq partners, ← key_eq hr] at hlt
            omega

end UidTable

namespace Catalog

theorem tabulate_cons_ok {coverage : Coverage} {table result : UidTable} {record : Record}
    {rest : List Record} (h : tabulate coverage table (record :: rest) = .ok result) :
    (∃ uid, record.uid = .ok (.resolved uid) ∧ table.find? uid = none ∧
      tabulate coverage (table.insert uid record) rest = .ok result) ∨
    (∃ state, record.uid = .ok state ∧ state.resolved? = none ∧ coverage = .resolved ∧
      tabulate coverage table rest = .ok result) := by
  unfold tabulate at h
  cases hu : record.uid with
  | error fault => simp [hu] at h
  | ok state =>
      simp only [hu] at h
      cases state with
      | resolved uid =>
          cases hf : table.find? uid with
          | some first => simp [hf] at h
          | none =>
              simp only [hf] at h
              exact .inl ⟨uid, rfl, hf, h⟩
      | absent =>
          cases coverage with
          | every => simp at h
          | resolved => exact .inr ⟨.absent, rfl, rfl, rfl, h⟩
      | unresolved =>
          cases coverage with
          | every => simp at h
          | resolved => exact .inr ⟨.unresolved, rfl, rfl, rfl, h⟩

theorem tabulate_cons_of_resolved {record : Record} {uid : Uid}
    (hu : record.uid = .ok (.resolved uid)) {table : UidTable} (hf : table.find? uid = none)
    (coverage : Coverage) (rest : List Record) :
    tabulate coverage table (record :: rest) =
      tabulate coverage (table.insert uid record) rest := by
  simp [tabulate, hu, hf]

theorem tabulate_cons_of_unresolved {record : Record} {state : UidField}
    (hu : record.uid = .ok state) (hs : state.resolved? = none) (table : UidTable)
    (rest : List Record) :
    tabulate .resolved table (record :: rest) = tabulate .resolved table rest := by
  cases state with
  | resolved uid => simp [UidField.resolved?] at hs
  | absent => simp [tabulate, hu]
  | unresolved => simp [tabulate, hu]

theorem find?_tabulate {coverage : Coverage} {table result : UidTable} {records : List Record}
    (h : tabulate coverage table records = .ok result) (uid : Uid) :
    result.find? uid =
      (table.find? uid).or (records.find? fun record => record.resolved? = some uid) := by
  induction records generalizing table with
  | nil =>
      simp only [tabulate, Except.ok.injEq] at h
      simp [h]
  | cons record rest ih =>
      rcases tabulate_cons_ok h with ⟨held, hu, hf, hrest⟩ | ⟨state, hu, hs, -, hrest⟩
      · have hr : record.resolved? = some held := Record.uid_eq_resolved_iff.mp hu
        rw [ih hrest]
        by_cases he : held = uid
        · subst he
          simp [hr, hf]
        · have hne : uid ≠ held := fun e => he e.symm
          simp [hr, he, UidTable.find?_insert_of_ne hne]
      · have hr : record.resolved? = none := by rw [Record.resolved?_of_uid hu, hs]
        rw [ih hrest]
        simp [hr]

/-- A record that is found holds the uid and is one of the catalog's. -/
theorem mem_of_find?_uidTable {coverage : Coverage} {catalog : Catalog} {table : UidTable}
    (h : catalog.uidTable coverage = .ok table) {uid : Uid} {record : Record}
    (hf : table.find? uid = some record) :
    record ∈ catalog.games ∧ record.resolved? = some uid := by
  rw [find?_tabulate h] at hf
  have hf' : catalog.games.find? (fun record => record.resolved? = some uid) = some record := by
    simpa [UidTable.find?] using hf
  exact ⟨List.mem_of_find?_eq_some hf', by simpa using List.find?_some hf'⟩

/-- Building a table adds an entry for each record that has a resolved uid. -/
theorem perm_tabulate {coverage : Coverage} {table result : UidTable} {records : List Record}
    (h : tabulate coverage table records = .ok result) :
    result.Perm (records.filterMap Record.keyed? ++ table) := by
  induction records generalizing table with
  | nil =>
      simp only [tabulate, Except.ok.injEq] at h
      simp [h]
  | cons record rest ih =>
      rcases tabulate_cons_ok h with ⟨uid, hu, hf, hrest⟩ | ⟨state, hu, hs, -, hrest⟩
      · have hr : record.resolved? = some uid := Record.uid_eq_resolved_iff.mp hu
        have inserted : (table.insert uid record).Perm ((uid, record) :: table) :=
          UidTable.perm_insert hf
        rw [List.filterMap_cons_some (Record.keyed?_of_resolved hr)]
        exact ((ih hrest).trans (inserted.append_left _)).trans List.perm_middle
      · have hr : record.resolved? = none := by rw [Record.resolved?_of_uid hu, hs]
        rw [List.filterMap_cons_none (Record.keyed?_eq_none hr)]
        exact ih hrest

/-- A table lists the records of its catalog that have a resolved uid, each under its uid. -/
theorem perm_uidTable {coverage : Coverage} {catalog : Catalog} {table : UidTable}
    (h : catalog.uidTable coverage = .ok table) :
    table.Perm (catalog.games.filterMap Record.keyed?) := by
  simpa using perm_tabulate h

theorem mem_uidTable_iff {coverage : Coverage} {catalog : Catalog} {table : UidTable}
    (h : catalog.uidTable coverage = .ok table) {uid : Uid} {record : Record} :
    (uid, record) ∈ table ↔ record ∈ catalog.games ∧ record.resolved? = some uid := by
  rw [(perm_uidTable h).mem_iff, List.mem_filterMap]
  constructor
  · rintro ⟨source, hm, he⟩
    obtain ⟨hr, rfl⟩ := Record.keyed?_eq_some_iff.mp he
    exact ⟨hm, hr⟩
  · rintro ⟨hm, hr⟩
    exact ⟨record, hm, Record.keyed?_of_resolved hr⟩

theorem mem_uidTable {coverage : Coverage} {catalog : Catalog} {table : UidTable}
    (h : catalog.uidTable coverage = .ok table) {entry : Uid × Record} (hm : entry ∈ table) :
    entry.2 ∈ catalog.games ∧ entry.2.uid = .ok (.resolved entry.1) := by
  rw [Record.uid_eq_resolved_iff]
  exact (mem_uidTable_iff h).mp hm

theorem ascending_tabulate {coverage : Coverage} {table result : UidTable}
    {records : List Record} (h : tabulate coverage table records = .ok result)
    (ascending : table.Ascending) : result.Ascending := by
  induction records generalizing table with
  | nil =>
      simp only [tabulate, Except.ok.injEq] at h
      exact h ▸ ascending
  | cons record rest ih =>
      rcases tabulate_cons_ok h with ⟨uid, -, -, hrest⟩ | ⟨_, -, -, -, hrest⟩
      · exact ih hrest (ascending.insert uid record)
      · exact ih hrest ascending

theorem ascending_uidTable {coverage : Coverage} {catalog : Catalog} {table : UidTable}
    (h : catalog.uidTable coverage = .ok table) : table.Ascending :=
  ascending_tabulate h .nil

theorem exists_tabulate {coverage : Coverage} {records : List Record} {table : UidTable}
    (valid : ∀ record ∈ records, ∃ state, record.uid = .ok state)
    (covered : coverage = .every → ∀ record ∈ records, ∃ uid, record.resolved? = some uid)
    (nodup : (records.filterMap Record.resolved?).Nodup)
    (fresh : ∀ uid ∈ records.filterMap Record.resolved?, table.find? uid = none) :
    ∃ result, tabulate coverage table records = .ok result := by
  induction records generalizing table with
  | nil => exact ⟨table, rfl⟩
  | cons record rest ih =>
      obtain ⟨⟨state, hs⟩, validRest⟩ := List.forall_mem_cons.mp valid
      have coveredRest : coverage = .every → ∀ other ∈ rest, ∃ uid, other.resolved? = some uid :=
        fun hc => (List.forall_mem_cons.mp (covered hc)).2
      cases hr : record.resolved? with
      | some uid =>
          rw [List.filterMap_cons_some hr] at nodup fresh
          obtain ⟨hnew, nodupRest⟩ := List.nodup_cons.mp nodup
          obtain ⟨hfree, freshRest⟩ := List.forall_mem_cons.mp fresh
          rw [tabulate_cons_of_resolved (Record.uid_eq_resolved_iff.mpr hr) hfree]
          refine ih validRest coveredRest nodupRest fun found hm => ?_
          have hne : found ≠ uid := fun e => hnew (e ▸ hm)
          rw [UidTable.find?_insert_of_ne hne]
          exact freshRest found hm
      | none =>
          rw [List.filterMap_cons_none hr] at nodup fresh
          cases coverage with
          | every =>
              obtain ⟨uid, hu⟩ := covered rfl record List.mem_cons_self
              rw [hr] at hu
              cases hu
          | resolved =>
              rw [tabulate_cons_of_unresolved hs ((Record.resolved?_of_uid hs).symm.trans hr)]
              exact ih validRest coveredRest nodup fresh

theorem resolved?_of_tabulate_every {table result : UidTable} {records : List Record}
    (h : tabulate .every table records = .ok result) :
    ∀ record ∈ records, ∃ uid, record.resolved? = some uid := by
  induction records generalizing table with
  | nil => nofun
  | cons record rest ih =>
      rcases tabulate_cons_ok h with ⟨uid, hu, -, hrest⟩ | ⟨_, _, _, hc, _⟩
      · exact List.forall_mem_cons.mpr ⟨⟨uid, Record.uid_eq_resolved_iff.mp hu⟩, ih hrest⟩
      · cases hc

/-- A table of all records has them all. -/
theorem perm_records {catalog : Catalog} {table : UidTable}
    (h : catalog.uidTable .every = .ok table) : (table.map (·.2)).Perm catalog.games := by
  have resolved := resolved?_of_tabulate_every h
  have records_eq : (catalog.games.filterMap Record.keyed?).map (·.2) = catalog.games := by
    rw [List.map_filterMap]
    refine (List.filterMap_congr fun record hm => ?_).trans List.filterMap_some
    obtain ⟨uid, hu⟩ := resolved record hm
    rw [Record.keyed?_of_resolved hu]
    rfl
  rw [← records_eq]
  exact (perm_uidTable h).map (·.2)

theorem uid_ok_of_tabulate {coverage : Coverage} {table result : UidTable}
    {records : List Record} (h : tabulate coverage table records = .ok result) :
    ∀ record ∈ records, ∃ state, record.uid = .ok state := by
  induction records generalizing table with
  | nil => simp
  | cons record rest ih =>
      intro other hm
      rcases tabulate_cons_ok h with ⟨uid, hu, -, hrest⟩ | ⟨state, hu, -, -, hrest⟩
      · rcases List.mem_cons.mp hm with rfl | hm
        · exact ⟨_, hu⟩
        · exact ih hrest other hm
      · rcases List.mem_cons.mp hm with rfl | hm
        · exact ⟨_, hu⟩
        · exact ih hrest other hm

theorem nodup_resolved_of_tabulate {coverage : Coverage} {table : UidTable}
    {records : List Record} (h : tabulate coverage [] records = .ok table) :
    (records.filterMap Record.resolved?).Nodup := by
  have uids_perm := (perm_tabulate h).map (·.1)
  rw [List.append_nil, Record.map_fst_keyed] at uids_perm
  exact uids_perm.nodup_iff.mp (ascending_tabulate h .nil).nodup_uids

/-- A catalog has a table exactly when its uids are valid, no two of its records have one resolved
uid and, where the table must hold every record, each has one. -/
theorem exists_uidTable_iff {catalog : Catalog} {coverage : Coverage} :
    (∃ table, catalog.uidTable coverage = .ok table) ↔
      (∀ record ∈ catalog.games, ∃ state, record.uid = .ok state) ∧
        (coverage = .every → ∀ record ∈ catalog.games, ∃ uid, record.resolved? = some uid) ∧
        (catalog.games.filterMap Record.resolved?).Nodup := by
  constructor
  · rintro ⟨table, h⟩
    refine ⟨uid_ok_of_tabulate h, ?_, nodup_resolved_of_tabulate h⟩
    rintro rfl
    exact resolved?_of_tabulate_every h
  · rintro ⟨valid, covered, nodup⟩
    exact exists_tabulate valid covered nodup fun _ _ => rfl

theorem exists_uidTable_of_perm {catalog other : Catalog} (h : catalog.games.Perm other.games)
    {coverage : Coverage} (tabulated : ∃ table, catalog.uidTable coverage = .ok table) :
    ∃ table, other.uidTable coverage = .ok table := by
  rw [exists_uidTable_iff] at tabulated ⊢
  obtain ⟨valid, covered, nodup⟩ := tabulated
  refine ⟨fun record hm => valid record (h.mem_iff.mpr hm), fun every record hm => ?_, ?_⟩
  · exact covered every record (h.mem_iff.mpr hm)
  · exact (h.filterMap Record.resolved?).nodup_iff.mp nodup

/-- Where each record has a uid of its own, a table of all records can be built. -/
theorem exists_uidTable {catalog : Catalog}
    (resolved : ∀ record ∈ catalog.games, ∃ uid, record.resolved? = some uid)
    (nodup : (catalog.games.map Record.resolved?).Nodup) (coverage : Coverage) :
    ∃ table, catalog.uidTable coverage = .ok table := by
  refine exists_uidTable_iff.mpr ⟨fun record hm => ?_, fun _ => resolved, ?_⟩
  · obtain ⟨uid, hu⟩ := resolved record hm
    exact ⟨_, Record.uid_eq_resolved_iff.mpr hu⟩
  · have uids_nodup := nodup.filterMap (f := id) fun a b uid ha hb => ha.trans hb.symm
    rwa [List.filterMap_map] at uids_nodup

theorem tabulate_resolved_of_every {table result : UidTable} {records : List Record}
    (h : tabulate .every table records = .ok result) :
    tabulate .resolved table records = .ok result := by
  induction records generalizing table with
  | nil => simpa [tabulate] using h
  | cons record rest ih =>
      rcases tabulate_cons_ok h with ⟨uid, hu, hf, hrest⟩ | ⟨_, _, _, hc, _⟩
      · rw [tabulate_cons_of_resolved hu hf]
        exact ih hrest
      · cases hc

/-- Rewriting records without touching a valid uid rewrites the table. -/
theorem tabulate_map {coverage : Coverage} {rewrite : Record → Record} {table result : UidTable}
    {records : List Record} (h : tabulate coverage table records = .ok result)
    (kept : ∀ record ∈ records, ∀ state, record.uid = .ok state →
      (rewrite record).uid = .ok state) :
    tabulate coverage (table.mapRecords rewrite) (records.map rewrite) =
      .ok (result.mapRecords rewrite) := by
  induction records generalizing table with
  | nil =>
      simp only [tabulate, Except.ok.injEq] at h
      simp [tabulate, h]
  | cons record rest ih =>
      have keptRest : ∀ other ∈ rest, ∀ state, other.uid = .ok state →
          (rewrite other).uid = .ok state := fun other hm => kept other (List.mem_cons_of_mem _ hm)
      have keptFirst := kept record List.mem_cons_self
      rw [List.map_cons]
      rcases tabulate_cons_ok h with ⟨uid, hu, hf, hrest⟩ | ⟨state, hu, hs, rfl, hrest⟩
      · have hf' : (table.mapRecords rewrite).find? uid = none := by
          rw [UidTable.find?_mapRecords, hf]
          rfl
        rw [tabulate_cons_of_resolved (keptFirst _ hu) hf', UidTable.insert_mapRecords]
        exact ih hrest keptRest
      · rw [tabulate_cons_of_unresolved (keptFirst _ hu) hs]
        exact ih hrest keptRest

end Catalog

end GameCatalog
