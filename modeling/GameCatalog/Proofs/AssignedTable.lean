import GameCatalog.Proofs.Decisions
import GameCatalog.Proofs.UidTable

/-!
# Tables of assigned catalogs

When the catalog that an assignment leaves has a table of uids. The uids that are given away are new
and distinct, so that two records share one afterwards only if two did before: the table of the
resolved records exists as it did before. The table of all records exists when nothing is left
unresolved, by the report of named records and in the catalog of the others.
-/

namespace GameCatalog

/-- A record ends with a uid unless it is reported as unresolved or has no name and no uid. -/
theorem Judged.keyed_iff {registry : Registry} {held : List Uid} {record : Record}
    {verdict : Verdict} (h : Judged registry held record verdict) :
    (∃ uid, (verdict.apply record).resolved? = some uid) ↔
      verdict.unresolved? = none ∧
        (record.usableName? = none → ∃ uid, record.resolved? = some uid) := by
  rw [h.resolved?_apply]
  cases h with
  | unnamed named => simp [named, Verdict.granted?, Verdict.unresolved?]
  | kept named state | contradicted named state =>
      simp [named, Record.resolved?_of_uid state, UidField.resolved?, Verdict.unresolved?]
  | granted named state unkeyed =>
      simp [named, Record.resolved?_of_uid state, unkeyed, Verdict.granted?, Verdict.unresolved?]
  | refused named state unkeyed | unknown named state unkeyed =>
      simp [Record.resolved?_of_uid state, unkeyed, Verdict.granted?, Verdict.unresolved?]

namespace Registry.Decides

variable {registry : Registry} {held : List Uid} {decisions : List (Record × Verdict)}

theorem keyed_iff (h : registry.Decides held decisions) :
    (∀ record ∈ decisions.map (fun decision => decision.2.apply decision.1),
        ∃ uid, record.resolved? = some uid) ↔
      (decisions.map Prod.snd).filterMap Verdict.unresolved? = [] ∧
        ∀ record ∈ decisions.map Prod.fst, record.usableName? = none →
          ∃ uid, record.resolved? = some uid := by
  rw [List.filterMap_eq_nil_iff, List.forall_mem_map, List.forall_mem_map, List.forall_mem_map,
    ← forall₂_and]
  refine forall₂_congr fun decision hm => ?_
  obtain ⟨later, judged⟩ := h.judged_of_mem hm
  exact judged.keyed_iff

/-- What is given away does not repeat a uid. -/
theorem nodup_resolved_iff
    (h : registry.Decides ((decisions.map Prod.fst).filterMap Record.resolved?) decisions) :
    ((decisions.map fun decision => decision.2.apply decision.1).filterMap
        Record.resolved?).Nodup ↔
      ((decisions.map Prod.fst).filterMap Record.resolved?).Nodup := by
  obtain ⟨granted_nodup, new⟩ := Judgement.nodup_granted h
  rw [h.perm_resolved.nodup_iff, List.nodup_append]
  constructor
  · rintro ⟨before_nodup, -, -⟩
    exact before_nodup
  · intro before_nodup
    refine ⟨before_nodup, granted_nodup, fun uid held other granted => ?_⟩
    rintro rfl
    exact new uid granted held

end Registry.Decides

theorem Record.nodup_resolved_iff {records : List Record} :
    (records.filterMap Record.resolved?).Nodup ↔
      records.Pairwise fun a b => ∀ uid, a.uid = .ok (.resolved uid) →
        b.uid ≠ .ok (.resolved uid) := by
  rw [List.nodup_iff_pairwise_ne, List.pairwise_filterMap]
  refine List.Pairwise.iff fun a b => forall_congr' fun uid => ?_
  rw [ne_eq, Record.uid_eq_resolved_iff, Record.uid_eq_resolved_iff]
  refine imp_congr_right fun _ => ⟨fun apart same => ?_, fun apart other held => ?_⟩
  · exact apart uid same rfl
  · rintro rfl
    exact apart held

namespace Catalog.ValidUids

variable {catalog : Catalog}

theorem exists_uidTable_every_iff (valid : catalog.ValidUids) :
    (∃ table, catalog.uidTable .every = .ok table) ↔
      (∀ record ∈ catalog.games, ∃ uid, record.resolved? = some uid) ∧
        (catalog.games.filterMap Record.resolved?).Nodup := by
  rw [exists_uidTable_iff.trans (and_iff_right valid), forall_prop_of_true rfl]

theorem exists_uidTable_resolved_iff (valid : catalog.ValidUids) :
    (∃ table, catalog.uidTable .resolved = .ok table) ↔
      (catalog.games.filterMap Record.resolved?).Nodup := by
  rw [exists_uidTable_iff.trans (and_iff_right valid), forall_prop_of_false (by decide), true_and]

end Catalog.ValidUids

namespace Registry

variable {registry : Registry} {document : String} {catalog : Catalog} {report : AssignReport}

/-- When an assignment succeeds, the table of all records can be built of the catalog that it leaves
if and only if it reports no unresolved name, every record without a usable name had a uid, and no
two records had one uid; and the table of the resolved records can be built if and only if it could
be before. -/
theorem exists_uidTable_assign (h : (registry.assign document catalog).answer = .ok report) :
    ((∃ table, (registry.assign document catalog).catalog.uidTable .every = .ok table) ↔
      report.unresolved = [] ∧
        (∀ record ∈ catalog.games, record.usableName? = none →
          ∃ uid, record.uid = .ok (.resolved uid)) ∧
        catalog.games.Pairwise fun a b => ∀ uid, a.uid = .ok (.resolved uid) →
          b.uid ≠ .ok (.resolved uid)) ∧
    ((∃ table, (registry.assign document catalog).catalog.uidTable .resolved = .ok table) ↔
      ∃ table, catalog.uidTable .resolved = .ok table) := by
  have valid := valid_of_assign h
  obtain ⟨decisions, games_eq, decided, catalog_eq, rfl⟩ := exists_decides_of_assign h
  have valid_after := valid_assign valid registry document
  have nodup_iff := Decides.nodup_resolved_iff (games_eq.symm ▸ decided)
  have keyed_iff := decided.keyed_iff
  rw [games_eq] at nodup_iff keyed_iff
  rw [valid_after.exists_uidTable_every_iff, valid_after.exists_uidTable_resolved_iff, catalog_eq,
    nodup_iff, keyed_iff, valid.exists_uidTable_resolved_iff, Record.nodup_resolved_iff]
  refine ⟨?_, Iff.rfl⟩
  simp only [Record.uid_eq_resolved_iff]
  exact and_assoc

/-- Go without a uid, and a record without a name that has one. -/
def goAndUnnamed : Catalog :=
  .new ⟨2024, 1, 0⟩ [⟨[("name", .str "Go")]⟩, ⟨[("uid", .num (.int 9 (by decide)))]⟩]

/-- Once Go has its uid all records are in the table, until there is a second record of that name. -/
theorem exists_uidTable_assign_goAndUnnamed :
    let registry : Registry := ⟨[("Go", ⟨7, by decide⟩)]⟩
    let assigned := registry.assign "old.json" goAndUnnamed
    let later := { assigned.catalog with games := assigned.catalog.games ++ [.named "Go" none] }
    let again := registry.assign "old.json" later
    assigned.answer = .ok ⟨true, 1, [], 1, [], []⟩ ∧
      (¬∃ table, goAndUnnamed.uidTable .every = .ok table) ∧
      (∃ table, assigned.catalog.uidTable .every = .ok table) ∧
      again.answer = .ok ⟨false, 0, ["Go"], 1, [], [⟨"Go", "old.json", ⟨7, by decide⟩⟩]⟩ ∧
      (¬∃ table, again.catalog.uidTable .every = .ok table) ∧
      ∃ table, again.catalog.uidTable .resolved = .ok table := by
  intro registry assigned later again
  have succeeds : assigned.answer = .ok ⟨true, 1, [], 1, [], []⟩ := by rfl
  have succeedsAgain : again.answer =
      .ok ⟨false, 0, ["Go"], 1, [], [⟨"Go", "old.json", ⟨7, by decide⟩⟩]⟩ := by rfl
  have unkeyed : ¬∃ table, goAndUnnamed.uidTable .every = .ok table := by
    rintro ⟨table, h⟩
    cases h
  have unnamed_keyed : ∀ record ∈ goAndUnnamed.games, record.usableName? = none →
      ∃ uid, record.uid = .ok (.resolved uid) :=
    List.forall_mem_cons.mpr ⟨fun unnamed => absurd unnamed (by decide),
      List.forall_mem_singleton.mpr fun _ => ⟨_, rfl⟩⟩
  have apart := Record.nodup_resolved_iff.mp
    (show (goAndUnnamed.games.filterMap Record.resolved?).Nodup by decide)
  refine ⟨succeeds, unkeyed, ?_, succeedsAgain, ?_, ?_⟩
  · exact (exists_uidTable_assign succeeds).1.mpr ⟨rfl, unnamed_keyed, apart⟩
  · intro tabulated
    cases ((exists_uidTable_assign succeedsAgain).1.mp tabulated).1
  · exact (exists_uidTable_assign succeedsAgain).2.mpr ⟨_, rfl⟩

end Registry

end GameCatalog
