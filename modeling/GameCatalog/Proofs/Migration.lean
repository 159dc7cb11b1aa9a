import GameCatalog.Proofs.Changes
import GameCatalog.Proofs.Except
import GameCatalog.Proofs.Judgement
import GameCatalog.Proofs.Registry
import GameCatalog.Proofs.Revision
import GameCatalog.Proofs.UidTable

/-!
# From names to uids

Catalogs whose records have names but no uids are migrated by giving each record the uid that an
authority has for its name. The revision between two migrated catalogs matches by uid, and it is the
one that matches the records by name.
-/

namespace GameCatalog

open Json

namespace Registry

def Knows (registry : Registry) (record : Record) : Prop :=
  ∃ name uid, record.name? = some name ∧ name ≠ "" ∧ registry.lookup name = some uid

/-- Every record has a name of its own, which the registry binds, and none has a uid. -/
structure Covers (registry : Registry) (catalog : Catalog) : Prop where
  known : ∀ record ∈ catalog.games, registry.Knows record
  nodup : (catalog.games.map Record.name?).Nodup
  unkeyed : ∀ record ∈ catalog.games, record.uid = .ok .absent ∨ record.uid = .ok .unresolved

def complete (registry : Registry) (record : Record) : Record :=
  record.setUid (registry.uidOf? record)

variable {registry : Registry}

@[simp] theorem resolved?_complete (record : Record) :
    (registry.complete record).resolved? = registry.uidOf? record :=
  record.resolved?_setUid _

theorem uidOf?_of_name {record : Record} {name : String} (named : record.name? = some name)
    (nonempty : name ≠ "") : registry.uidOf? record = registry.lookup name :=
  uidOf?_of_usableName? (Record.usableName?_of_name named nonempty) registry

theorem uidOf?_eq_iff (injective : registry.Injective) {a b : Record} (ha : registry.Knows a)
    (hb : registry.Knows b) : registry.uidOf? a = registry.uidOf? b ↔ a.name? = b.name? := by
  obtain ⟨name, uid, hname, hne, bound⟩ := ha
  obtain ⟨other, found, hother, hne', bound'⟩ := hb
  rw [uidOf?_of_name hname hne, uidOf?_of_name hother hne', hname, hother, Option.some.injEq]
  constructor
  · intro he
    rw [bound, bound'] at he
    exact injective bound (he ▸ bound')
  · intro he
    rw [he]

theorem Knows.uidOf? {record : Record} (h : registry.Knows record) :
    ∃ uid, registry.uidOf? record = some uid := by
  obtain ⟨name, uid, hname, hne, bound⟩ := h
  exact ⟨uid, (uidOf?_of_name hname hne).trans bound⟩

/-! ## Assigning to a catalog that is covered -/

/-- Records with names of their own are all given their uids, as long as none of these is held. -/
theorem exists_judgement {records : List Record} (injective : registry.Injective)
    (known : ∀ record ∈ records, registry.Knows record) (nodup : (records.map Record.name?).Nodup)
    (unkeyed : ∀ record ∈ records, record.uid = .ok .absent ∨ record.uid = .ok .unresolved)
    {held : List Uid}
    (free : ∀ record ∈ records, ∀ uid, registry.uidOf? record = some uid → uid ∉ held) :
    ∃ verdicts, Judgement registry held records verdicts ∧
      Verdict.applyAll records verdicts = records.map registry.complete ∧
      verdicts.filterMap Verdict.unresolved? = [] := by
  induction records generalizing held with
  | nil => exact ⟨[], .nil held, rfl, rfl⟩
  | cons record rest ih =>
      obtain ⟨⟨name, uid, hname, hne, bound⟩, knownRest⟩ := List.forall_mem_cons.mp known
      obtain ⟨hnew, nodupRest⟩ := List.nodup_cons.mp nodup
      obtain ⟨state, unkeyedRest⟩ := List.forall_mem_cons.mp unkeyed
      obtain ⟨freeFirst, freeRest⟩ := List.forall_mem_cons.mp free
      have huid := (uidOf?_of_name hname hne).trans bound
      have usable := Record.usableName?_of_name hname hne
      have judged : Judged registry held record (.granted name uid) := by
        rcases state with state | state
        · exact .granted usable state rfl bound (freeFirst uid huid)
        · exact .granted usable state rfl bound (freeFirst uid huid)
      have freeLater : ∀ other ∈ rest, ∀ found, registry.uidOf? other = some found →
          found ∉ uid :: held := by
        intro other hm found hf
        rw [List.mem_cons, not_or]
        refine ⟨?_, freeRest other hm found hf⟩
        rintro rfl
        obtain ⟨another, _, hother, hne', -⟩ := knownRest other hm
        rw [uidOf?_of_name hother hne'] at hf
        rw [injective hf bound] at hother
        exact hnew (List.mem_map.mpr ⟨other, hm, hother.trans hname.symm⟩)
      obtain ⟨verdicts, others, happly, hnone⟩ := ih knownRest nodupRest unkeyedRest freeLater
      refine ⟨.granted name uid :: verdicts, .cons judged others, ?_, hnone⟩
      rw [Verdict.applyAll_cons, happly, List.map_cons, complete, huid]
      rfl

/-- Assigning to a covered catalog succeeds, gives each record the uid of its name and leaves none
unresolved. -/
theorem Covers.assign {catalog : Catalog} (covers : registry.Covers catalog)
    (injective : registry.Injective) (document : String) :
    ∃ report, (registry.assign document catalog).answer = .ok report ∧ report.unresolved = [] ∧
      (registry.assign document catalog).catalog =
        { catalog with games := catalog.games.map registry.complete } := by
  have valid : catalog.ValidUids := fun record hm =>
    (covers.unkeyed record hm).elim (fun h => ⟨_, h⟩) fun h => ⟨_, h⟩
  have none_held : catalog.games.filterMap Record.resolved? = [] := by
    rw [List.filterMap_eq_nil_iff]
    intro record hm
    rcases covers.unkeyed record hm with h | h <;> exact Record.resolved?_of_uid h
  have free : ∀ record ∈ catalog.games, ∀ uid, registry.uidOf? record = some uid →
      uid ∉ catalog.games.filterMap Record.resolved? := by
    simp [none_held]
  obtain ⟨verdicts, judged, happly, hnone⟩ :=
    exists_judgement injective covers.known covers.nodup covers.unkeyed free
  rw [assign_of_judgement valid judged document, happly]
  exact ⟨_, rfl, hnone, rfl⟩

/-! ## Tables of completed catalogs -/

def completed (registry : Registry) (catalog : Catalog) : Catalog :=
  { catalog with games := catalog.games.map registry.complete }

theorem Covers.exists_uidTable {catalog : Catalog} (covers : registry.Covers catalog)
    (injective : registry.Injective) :
    ∃ table, (registry.completed catalog).uidTable .every = .ok table := by
  apply Catalog.exists_uidTable
  · simp only [completed, List.forall_mem_map, resolved?_complete]
    exact fun record hm => (covers.known record hm).uidOf?
  · rw [completed, List.map_map]
    refine List.Nodup.map_on ?_ (List.Nodup.of_map _ covers.nodup)
    intro a ha b hb he
    simp only [Function.comp_apply, resolved?_complete] at he
    have hname := (uidOf?_eq_iff injective (covers.known a ha) (covers.known b hb)).mp he
    exact List.inj_on_of_nodup_map covers.nodup ha hb hname

section Tables

variable {catalog other : Catalog} {table otherTable : UidTable}

theorem mem_completed_iff {coverage : Coverage}
    (h : (registry.completed catalog).uidTable coverage = .ok table) {uid : Uid}
    {record : Record} :
    (uid, record) ∈ table ↔ ∃ source ∈ catalog.games,
      registry.uidOf? source = some uid ∧ registry.complete source = record := by
  rw [Catalog.mem_uidTable_iff h, completed, List.mem_map]
  constructor
  · rintro ⟨⟨source, hm, rfl⟩, hu⟩
    exact ⟨source, hm, (resolved?_complete source).symm.trans hu, rfl⟩
  · rintro ⟨source, hm, hu, rfl⟩
    exact ⟨⟨source, hm, rfl⟩, (resolved?_complete source).trans hu⟩

theorem find?_completed_eq_some_iff {coverage : Coverage}
    (h : (registry.completed catalog).uidTable coverage = .ok table) {uid : Uid}
    {record : Record} :
    table.find? uid = some record ↔ ∃ source ∈ catalog.games,
      registry.uidOf? source = some uid ∧ registry.complete source = record := by
  rw [(Catalog.ascending_uidTable h).find?_eq_some_iff, mem_completed_iff h]

/-- A completed record is missing elsewhere exactly when its name is. -/
theorem mem_missingFrom_completed (injective : registry.Injective)
    (covers : registry.Covers catalog) (coversOther : registry.Covers other)
    {coverage : Coverage} (h : (registry.completed catalog).uidTable coverage = .ok table)
    (ho : (registry.completed other).uidTable coverage = .ok otherTable) {uid : Uid}
    {record : Record} :
    (uid, record) ∈ Revision.missingFrom otherTable table ↔ ∃ source ∈ catalog.games,
      source.name? ∉ other.games.map Record.name? ∧
        registry.uidOf? source = some uid ∧ registry.complete source = record := by
  have missing_iff : ∀ source ∈ catalog.games, registry.uidOf? source = some uid →
      (otherTable.find? uid = none ↔ source.name? ∉ other.games.map Record.name?) := by
    intro source hm hu
    rw [Option.eq_none_iff_forall_ne_some, ← not_iff_not]
    simp only [not_forall, not_not, List.mem_map]
    constructor
    · rintro ⟨found, hf⟩
      obtain ⟨twin, htwin, htu, -⟩ := (find?_completed_eq_some_iff ho).mp hf
      exact ⟨twin, htwin, (uidOf?_eq_iff injective (coversOther.known twin htwin)
        (covers.known source hm)).mp (htu.trans hu.symm)⟩
    · rintro ⟨twin, htwin, hname⟩
      have htu := (uidOf?_eq_iff injective (coversOther.known twin htwin)
        (covers.known source hm)).mpr hname
      exact ⟨_, (find?_completed_eq_some_iff ho).mpr ⟨twin, htwin, htu.trans hu, rfl⟩⟩
  rw [Revision.missingFrom, List.mem_filter, mem_completed_iff h]
  simp only [Option.isNone_iff_eq_none]
  constructor
  · rintro ⟨⟨source, hm, hu, he⟩, hnone⟩
    exact ⟨source, hm, (missing_iff source hm hu).mp hnone, hu, he⟩
  · rintro ⟨source, hm, hname, hu, he⟩
    exact ⟨⟨source, hm, hu, he⟩, (missing_iff source hm hu).mpr hname⟩

end Tables

/-- Completing both versions of a record takes out the change of its uid and no other. -/
theorem changes_complete {source record : Record} {uid : Uid}
    (hs : registry.uidOf? source = some uid) (hr : registry.uidOf? record = some uid)
    (names_nodup : record.fields.names.Nodup) :
    (registry.complete source).changes (registry.complete record) =
      (source.changes record).filter (·.field ≠ "uid") := by
  have stored : (registry.complete source).get? "uid" = some (.num uid.toNumber) := by
    simp [complete, hs, Record.setUid]
  calc (registry.complete source).changes (registry.complete record)
      = (registry.complete source).changes (record.set "uid" (.num uid.toNumber)) := by
        rw [complete, complete, hr]
        rfl
    _ = ((registry.complete source).changes record).filter (·.field ≠ "uid") :=
        Record.changes_set names_nodup stored (.num _)
    _ = (source.changes record).filter (·.field ≠ "uid") :=
        Record.filter_changes_set_old source record "uid" _

end Registry

/-! ## The revision -/

namespace Revision

/-- What a revision says of two catalogs whose records were completed, in terms of their names: the
records of names that only one catalog has, and those of both that do not agree in a field other
than `uid`, with the changes of these fields. Each list ascends by uid. -/
structure MatchesNames (registry : Registry) (old new : Catalog) (revision : Revision) : Prop where
  added : ∀ uid record, (uid, record) ∈ revision.added ↔ ∃ source ∈ new.games,
    source.name? ∉ old.games.map Record.name? ∧
      registry.uidOf? source = some uid ∧ registry.complete source = record
  removed : ∀ uid record, (uid, record) ∈ revision.removed ↔ ∃ source ∈ old.games,
    source.name? ∉ new.games.map Record.name? ∧
      registry.uidOf? source = some uid ∧ registry.complete source = record
  updated : ∀ update, update ∈ revision.updated ↔ ∃ before ∈ old.games, ∃ after ∈ new.games,
    before.name? = after.name? ∧ (∃ field ≠ "uid", before.agreesAt after field = false) ∧
      registry.uidOf? after = some update.uid ∧
      update.old = registry.complete before ∧ update.new = registry.complete after ∧
      update.changes = (before.changes after).filter (·.field ≠ "uid")
  ascending : revision.added.Ascending ∧ revision.removed.Ascending ∧
    revision.updated.Pairwise fun a b => a.uid.val < b.uid.val

section Completed

variable {registry : Registry} {old new : Catalog} {table newTable : UidTable}

theorem mem_updated_completed (injective : registry.Injective) (covers : registry.Covers old)
    (coversNew : registry.Covers new)
    (names_nodup : ∀ record ∈ new.games, record.fields.names.Nodup)
    (ho : (registry.completed old).uidTable .every = .ok table)
    (hn : (registry.completed new).uidTable .every = .ok newTable) (update : Update) :
    update ∈ (ofTables table newTable).updated ↔ ∃ before ∈ old.games, ∃ after ∈ new.games,
      before.name? = after.name? ∧ (∃ field ≠ "uid", before.agreesAt after field = false) ∧
        registry.uidOf? after = some update.uid ∧
        update.old = registry.complete before ∧ update.new = registry.complete after ∧
        update.changes = (before.changes after).filter (·.field ≠ "uid") := by
  rw [mem_updated_iff (Catalog.ascending_uidTable hn), Registry.find?_completed_eq_some_iff ho,
    Registry.find?_completed_eq_some_iff hn]
  constructor
  · rintro ⟨⟨before, hbefore, hbu, hold⟩, ⟨after, hafter, hau, hnew⟩, hchanges, hne⟩
    rw [← hold, ← hnew, Registry.changes_complete hbu hau (names_nodup after hafter)] at hchanges
    have hname := (Registry.uidOf?_eq_iff injective (covers.known before hbefore)
      (coversNew.known after hafter)).mp (hbu.trans hau.symm)
    have hdiffers := (Record.filter_changes_ne_nil_iff (names_nodup after hafter)).mp
      (hchanges ▸ hne)
    exact ⟨before, hbefore, after, hafter, hname, hdiffers, hau, hold.symm, hnew.symm, hchanges⟩
  · rintro ⟨before, hbefore, after, hafter, hname, hdiffers, hau, hold, hnew, hchanges⟩
    have hbu := ((Registry.uidOf?_eq_iff injective (covers.known before hbefore)
      (coversNew.known after hafter)).mpr hname).trans hau
    have hne := (Record.filter_changes_ne_nil_iff (names_nodup after hafter)).mpr hdiffers
    refine ⟨⟨before, hbefore, hbu, hold.symm⟩, ⟨after, hafter, hau, hnew.symm⟩, ?_,
      hchanges ▸ hne⟩
    rw [hold, hnew, Registry.changes_complete hbu hau (names_nodup after hafter), hchanges]

/-- The revision of two completed catalogs matches their records by name. -/
theorem between_completed (injective : registry.Injective) (covers : registry.Covers old)
    (coversNew : registry.Covers new)
    (names_nodup : ∀ record ∈ new.games, record.fields.names.Nodup) :
    ∃ revision, between (registry.completed old) (registry.completed new) = .ok revision ∧
      revision.MatchesNames registry old new := by
  obtain ⟨table, ho⟩ := covers.exists_uidTable injective
  obtain ⟨newTable, hn⟩ := coversNew.exists_uidTable injective
  refine ⟨_, between_eq_ok_iff.mpr ⟨table, newTable, ho, hn, rfl⟩, ?_, ?_, ?_, ?_⟩
  · exact fun _ _ => Registry.mem_missingFrom_completed injective coversNew covers hn ho
  · exact fun _ _ => Registry.mem_missingFrom_completed injective covers coversNew ho hn
  · exact mem_updated_completed injective covers coversNew names_nodup ho hn
  · exact ascending_ofTables (Catalog.ascending_uidTable ho) (Catalog.ascending_uidTable hn)

theorem field_ne_name {before after : Record} {name : String} (hb : before.name? = some name)
    (ha : after.name? = some name) (names_nodup : after.fields.names.Nodup) :
    ∀ change ∈ before.changes after, change.field ≠ "name" := by
  intro change hm hfield
  have differs := (Record.exists_change_iff names_nodup).mp ⟨change, hm, hfield⟩
  rw [Record.agreesAt, Record.get?_of_name? hb, Record.get?_of_name? ha] at differs
  simp [Value.same] at differs

end Completed

/-- Giving the records of two catalogs the uids that an authority has for their names succeeds, and
the revision of the results is the one by name; none of its changes is about a name or a uid. -/
theorem between_assigned {authority old new : Catalog} {registry : Registry}
    (indexed : (Registry.ofCatalog authority).1 = .ok registry) (injective : registry.Injective)
    (covers : registry.Covers old) (coversNew : registry.Covers new)
    (names_nodup : ∀ record ∈ new.games, record.fields.names.Nodup)
    (document newDocument : String) :
    ∃ report newReport revision,
      (registry.assign document old).answer = .ok report ∧ report.unresolved = [] ∧
      (registry.assign newDocument new).answer = .ok newReport ∧ newReport.unresolved = [] ∧
      between (registry.assign document old).catalog (registry.assign newDocument new).catalog =
        .ok revision ∧
      revision.MatchesNames registry old new ∧
      (∀ update ∈ revision.updated, ∀ change ∈ update.changes,
        change.field ≠ "name" ∧ change.field ≠ "uid" ∧ ∀ a b, change ≠ .renamed a b) ∧
      ∀ record ∈ old.games ++ new.games, ∃ known ∈ authority.games,
        known.name? = record.name? ∧ known.resolved? = registry.uidOf? record := by
  obtain ⟨report, hreport, hnone, hcatalog⟩ := covers.assign injective document
  obtain ⟨newReport, hnewReport, hnewNone, hnewCatalog⟩ := coversNew.assign injective newDocument
  obtain ⟨revision, hrevision, hmatches⟩ :=
    between_completed injective covers coversNew names_nodup
  rw [hcatalog, hnewCatalog]
  refine ⟨report, newReport, revision, hreport, hnone, hnewReport, hnewNone, hrevision, hmatches,
    ?_, ?_⟩
  · intro update hm change hc
    obtain ⟨before, -, after, hafter, hname, -, -, -, -, hchanges⟩ := (hmatches.updated update).mp hm
    rw [hchanges] at hc
    obtain ⟨hc, hne⟩ := List.mem_filter.mp hc
    obtain ⟨name, _, hn, -⟩ := coversNew.known after hafter
    have hfield := field_ne_name (hname.trans hn) hn (names_nodup after hafter) change hc
    refine ⟨hfield, by simpa using hne, ?_⟩
    rintro a b rfl
    exact hfield rfl
  · intro record hm
    obtain ⟨name, uid, hname, hne, bound⟩ :=
      (List.mem_append.mp hm).elim (covers.known record) (coversNew.known record)
    obtain ⟨known, hknown, usable, hu⟩ := Registry.exists_of_lookup indexed bound
    exact ⟨known, hknown, (Record.name?_of_usableName? usable).trans hname.symm,
      hu.trans ((Registry.uidOf?_of_name hname hne).trans bound).symm⟩

def chessGoHex : Catalog :=
  .new ⟨2025, 1, 0⟩ [.named "Chess" (Uid.ofInt? 8), .named "Go" (Uid.ofInt? 7),
    .named "Hex" (Uid.ofInt? 9)]

/-- From one catalog to the next Hex is gone, Chess is new and Go got a field. -/
theorem between_assigned_chessGoHex :
    let registry : Registry := ⟨[("Chess", ⟨8, by decide⟩), ("Go", ⟨7, by decide⟩),
      ("Hex", ⟨9, by decide⟩)]⟩
    let old := Catalog.new ⟨2024, 1, 0⟩ [.named "Hex" none, ⟨[("name", .str "Go")]⟩]
    let new := Catalog.new ⟨2024, 2, 0⟩ [⟨[("name", .str "Go"), ("uid", .null), ("board", .null)]⟩,
      ⟨[("name", .str "Chess")]⟩]
    let revision? := between (registry.assign "old.json" old).catalog
      (registry.assign "new.json" new).catalog
    (Registry.ofCatalog chessGoHex).1 = .ok registry ∧ registry.Injective ∧
      registry.Covers old ∧ registry.Covers new ∧
      (∀ record ∈ new.games, record.fields.names.Nodup) ∧
      (∃ revision, revision? = .ok revision ∧ revision.MatchesNames registry old new) ∧
      revision?.map (fun revision => revision.added.map (·.1.val)) = .ok [8] ∧
      revision?.map (fun revision => revision.removed.map (·.1.val)) = .ok [9] ∧
      revision?.map (fun revision => revision.updated.map fun update =>
        (update.uid.val, update.changes)) = .ok [(7, [.added "board"])] := by
  intro registry old new revision?
  have indexed : (Registry.ofCatalog chessGoHex).1 = .ok registry := by rfl
  have injective : registry.Injective := Registry.injective_of_nodup (by decide)
  have known : ∀ record ∈ old.games ++ new.games, registry.Knows record := by
    simp only [old, new, Catalog.new, List.cons_append, List.nil_append, List.forall_mem_cons]
    exact ⟨⟨"Hex", _, rfl, by decide, rfl⟩, ⟨"Go", _, rfl, by decide, rfl⟩,
      ⟨"Go", _, rfl, by decide, rfl⟩, ⟨"Chess", _, rfl, by decide, rfl⟩, List.forall_mem_nil _⟩
  have covers : registry.Covers old :=
    ⟨fun record hm => known record (List.mem_append_left _ hm), by decide,
      List.forall_mem_cons.mpr ⟨.inr rfl, List.forall_mem_singleton.mpr (.inl rfl)⟩⟩
  have coversNew : registry.Covers new :=
    ⟨fun record hm => known record (List.mem_append_right _ hm), by decide,
      List.forall_mem_cons.mpr ⟨.inr rfl, List.forall_mem_singleton.mpr (.inl rfl)⟩⟩
  have names_nodup : ∀ record ∈ new.games, record.fields.names.Nodup :=
    List.forall_mem_cons.mpr ⟨by decide, List.forall_mem_singleton.mpr (by decide)⟩
  obtain ⟨_, _, revision, -, -, -, -, found, hmatches, -⟩ :=
    between_assigned indexed injective covers coversNew names_nodup "old.json" "new.json"
  exact ⟨indexed, injective, covers, coversNew, names_nodup, ⟨revision, found, hmatches⟩,
    by rfl, by rfl, by rfl⟩

end Revision

end GameCatalog
