import GameCatalog.Proofs.Carry
import GameCatalog.Proofs.Decisions
import GameCatalog.Proofs.Order
import GameCatalog.Proofs.Unwrap
import Mathlib.Algebra.BigOperators.Group.List.Basic

/-!
# The order of the records does not matter

It makes no difference whether a catalog is sorted before or after its records are edited.
Unwrapping and carrying edit each record by itself. An assignment gives a uid to the first record
that claims it; but where names have uids of their own, all records that claim one uid have one
name, and sorting keeps the order of these.
-/

namespace GameCatalog

open Json

/-! ## Verdicts by name -/

namespace Registry

variable {registry : Registry} {held : List Uid} {record : Record} {verdict : Verdict}
  {decisions rest : List (Record × Verdict)}

/-- A verdict is nothing to the records of another name, which do not claim the uid that it gives
away. -/
theorem decides_filter_congr (injective : registry.Injective)
    (first : Judged registry held record verdict) {name : Option String}
    (other_name : record.name? ≠ name) :
    registry.Decides (verdict.granted?.toList ++ held) (decisions.filter (·.1.name? = name)) ↔
      registry.Decides held (decisions.filter (·.1.name? = name)) := by
  have same : ∀ claimant ∈ (decisions.filter (·.1.name? = name)).map (·.1), ∀ uid,
      registry.uidOf? claimant = some uid →
        (uid ∈ verdict.granted?.toList ++ held ↔ uid ∈ held) := by
    intro claimant hm uid hu
    obtain ⟨decision, hd, rfl⟩ := List.mem_map.mp hm
    have named : decision.1.name? = name := by simpa using (List.mem_filter.mp hd).2
    rw [List.mem_append, or_iff_right]
    intro given
    have granted : verdict.granted? = some uid := by simpa using given
    exact other_name
      ((name?_eq_of_uidOf? injective (first.uidOf?_of_granted granted) hu).trans named)
  constructor
  · intro h
    exact h.congr same
  · intro h
    exact h.congr fun claimant hm uid hu => (same claimant hm uid hu).symm

/-- The verdicts on records are right when those on the records of each name are. -/
theorem decides_iff_filter (injective : registry.Injective) :
    registry.Decides held decisions ↔
      ∀ name, registry.Decides held (decisions.filter (·.1.name? = name)) := by
  induction decisions generalizing held with
  | nil => simp
  | cons decision rest ih =>
      obtain ⟨record, verdict⟩ := decision
      rw [decides_cons_iff]
      constructor
      · rintro ⟨first, others⟩ name
        have others_of_name := ih.mp others name
        by_cases named : record.name? = name
        · rw [List.filter_cons_of_pos (by simpa using named), decides_cons_iff]
          exact ⟨first, others_of_name⟩
        · rw [List.filter_cons_of_neg (by simpa using named)]
          exact (decides_filter_congr injective first named).mp others_of_name
      · intro of_name
        have own := of_name record.name?
        rw [List.filter_cons_of_pos (by simp), decides_cons_iff] at own
        obtain ⟨first, others⟩ := own
        refine ⟨first, ih.mpr fun name => ?_⟩
        by_cases named : record.name? = name
        · exact named ▸ others
        · have others_of_name := of_name name
          rw [List.filter_cons_of_neg (by simpa using named)] at others_of_name
          exact (decides_filter_congr injective first named).mpr others_of_name

theorem decides_mergeSort (injective : registry.Injective) (h : registry.Decides held decisions) :
    registry.Decides held (decisions.mergeSort fun a b => a.1.nameLe b.1) := by
  rw [decides_iff_filter injective] at h ⊢
  intro name
  have stable := filter_mergeSort (fun (record, _) => record.name?) decisions name
  exact stable.symm ▸ h name

theorem assign_of_invalid {catalog : Catalog} (invalid : ¬catalog.ValidUids) (registry : Registry)
    (document : String) : ∃ fault, registry.assign document catalog = .refuse catalog fault := by
  rcases registry.assign_cases document catalog with refused | ⟨held, hh, -⟩
  · exact refused
  · exact absurd (valid_of_heldUids hh) invalid

end Registry

/-! ## Outcomes on sorted catalogs -/

/-- Two reports of one assignment, on the records in two orders. -/
structure AssignReport.Rearranges (report other : AssignReport) : Prop where
  changed : report.changed = other.changed
  assigned : report.assigned = other.assigned
  skipped : report.skipped = other.skipped
  unresolved : report.unresolved.Perm other.unresolved
  conflicts : report.conflicts.Perm other.conflicts
  refused : report.refused.Perm other.refused

theorem AssignReport.rearranges_ofVerdicts {verdicts others : List Verdict}
    (h : verdicts.Perm others) (document : String) :
    (ofVerdicts document verdicts).Rearranges (ofVerdicts document others) where
  changed := h.any_eq
  assigned := (h.filterMap _).length_eq
  skipped := h.count_eq _
  unresolved := h.filterMap _
  conflicts := h.filterMap _
  refused := h.filterMap _

/-- An operation on the sorted catalog does what it does on the catalog, and leaves it sorted: it
succeeds in the same cases, with a report that corresponds. -/
structure Edit.SortsTo (Corresponds : α → α → Prop) (edit sorted : Edit α) : Prop where
  succeeds_iff : (∃ report, edit.answer = .ok report) ↔ ∃ report, sorted.answer = .ok report
  catalog : sorted.catalog = edit.catalog.sortByName.1
  report : ∀ {report other}, edit.answer = .ok report → sorted.answer = .ok other →
    Corresponds report other

namespace Edit

variable {Corresponds : α → α → Prop}

theorem SortsTo.refuse (catalog : Catalog) (fault other : RecordFault) :
    SortsTo Corresponds (.refuse catalog fault) (.refuse catalog.sortByName.1 other) where
  succeeds_iff := by simp [Edit.refuse]
  catalog := rfl
  report := nofun

theorem SortsTo.of_ok {edit sorted : Edit α} {report other : α} (h : edit.answer = .ok report)
    (h' : sorted.answer = .ok other) (catalog : sorted.catalog = edit.catalog.sortByName.1)
    (corresponds : Corresponds report other) : SortsTo Corresponds edit sorted where
  succeeds_iff := by simp [h, h']
  catalog := catalog
  report := by
    intro found found' hfound hfound'
    rw [h] at hfound
    rw [h'] at hfound'
    cases hfound
    cases hfound'
    exact corresponds

end Edit

namespace Catalog

theorem validUids_sortByName_iff {catalog : Catalog} :
    catalog.sortByName.1.ValidUids ↔ catalog.ValidUids :=
  forall_congr' fun _ => imp_congr_left catalog.perm_sortByName.mem_iff

theorem assign_sortByName {registry : Registry} (injective : registry.Injective) (document : String)
    (catalog : Catalog) :
    (registry.assign document catalog).SortsTo AssignReport.Rearranges
      (registry.assign document catalog.sortByName.1) := by
  by_cases valid : catalog.ValidUids
  · obtain ⟨decisions, games_eq, decided⟩ :=
      registry.exists_decides (catalog.games.filterMap Record.resolved?) valid
    have sorted_perm := List.mergeSort_perm decisions fun a b => a.1.nameLe b.1
    have sorted_games : (decisions.mergeSort fun a b => a.1.nameLe b.1).map Prod.fst =
        catalog.sortByName.1.games := by
      rw [sortByName_fst, ← games_eq]
      exact map_mergeSort_nameLe (fun _ => rfl) decisions
    have sorted_decided := (Registry.decides_mergeSort injective decided).congr
      fun _ _ uid _ => (catalog.perm_sortByName.filterMap Record.resolved?).symm.mem_iff (a := uid)
    rw [Registry.assign_of_decides valid games_eq decided, Registry.assign_of_decides
      (validUids_sortByName_iff.mpr valid) sorted_games sorted_decided]
    refine .of_ok rfl rfl ?_ (AssignReport.rearranges_ofVerdicts (sorted_perm.map _).symm document)
    rw [sortByName_fst, sortByName_fst]
    exact congrArg (fun games => { catalog with games }) (map_mergeSort_nameLe
      (fun decision : Record × Verdict => decision.2.name?_apply decision.1) decisions)
  · obtain ⟨fault, refused⟩ := Registry.assign_of_invalid valid registry document
    obtain ⟨other, refused'⟩ := Registry.assign_of_invalid
      (validUids_sortByName_iff.not.mpr valid) registry document
    rw [refused, refused']
    exact .refuse catalog fault other

theorem carry_sortByName {field : String} (h : field ≠ "name") (old new : Catalog) :
    (old.carry new field).SortsTo Eq (old.carry new.sortByName.1 field) := by
  rcases old.carry_cases new field with ⟨fault, refused⟩ | ⟨table, newTable, ho, hn, carried⟩
  · rcases old.carry_cases new.sortByName.1 field with
      ⟨other, refused'⟩ | ⟨table, sortedTable, ho, hs, -⟩
    · rw [refused, refused']
      exact .refuse new fault other
    · obtain ⟨newTable, hn⟩ := exists_uidTable_of_perm new.perm_sortByName ⟨sortedTable, hs⟩
      rw [carry_of_tables ho hn] at refused
      cases congrArg Edit.answer refused
  · obtain ⟨sortedTable, hs⟩ := exists_uidTable_of_perm new.perm_sortByName.symm ⟨newTable, hn⟩
    rw [carried, carry_of_tables ho hs]
    refine .of_ok rfl rfl (sortByName_map (Record.name?_carriedFrom h table) new) ?_
    have transfers_perm := (new.perm_sortByName.map (Transfer.of table field)).symm
    rw [CarryReport.ofTransfers, CarryReport.ofTransfers, transfers_perm.countP_eq,
      transfers_perm.countP_eq]

theorem unwrap_sortByName {fields : List String} (h : "name" ∉ fields) (catalog : Catalog) :
    catalog.sortByName.1.unwrap fields =
      ((catalog.unwrap fields).1.sortByName.1, (catalog.unwrap fields).2) := by
  refine Prod.ext ?_ ?_
  · rw [unwrap_catalog, unwrap_catalog]
    exact sortByName_map (Record.name?_unwrapAll h) catalog
  · have results_perm := catalog.perm_sortByName.map fun record => record.unwrapAll fields
    have counts_perm := results_perm.map (·.2)
    simp only [unwrap, ← List.sum_eq_foldr]
    exact counts_perm.sum_eq

/-- For assigning, carrying and unwrapping the order of the records is cosmetic: what they do to a
sorted catalog is what they do to the catalog, sorted. -/
theorem sortByName_commutes (catalog : Catalog) :
    (∀ (registry : Registry) (document : String), registry.Injective →
      (registry.assign document catalog).SortsTo AssignReport.Rearranges
        (registry.assign document catalog.sortByName.1)) ∧
    (∀ (old : Catalog) (field : String), field ≠ "name" →
      (old.carry catalog field).SortsTo Eq (old.carry catalog.sortByName.1 field)) ∧
    ∀ fields : List String, "name" ∉ fields →
      catalog.sortByName.1.unwrap fields =
        ((catalog.unwrap fields).1.sortByName.1, (catalog.unwrap fields).2) := by
  refine ⟨?_, ?_, ?_⟩
  · intro registry document injective
    exact assign_sortByName injective document catalog
  · intro old field other
    exact carry_sortByName other old catalog
  · intro fields other
    exact unwrap_sortByName other catalog

/-- Two records of the name Go stand around Chess, of which the first has its size in an array. -/
def goAroundChess : Catalog :=
  .new ⟨2024, 1, 0⟩ [⟨[("name", .str "Go"), ("size", .arr [.num (.int 19 (by decide))])]⟩,
    ⟨[("name", .str "Chess"), ("uid", .num (.int 64 (by decide)))]⟩,
    ⟨[("name", .str "Go"), ("uid", .null)]⟩]

/-- In either order the first record of the name Go gets the uid, Chess takes its old size, and one
array is unwrapped. -/
theorem sortByName_commutes_goAroundChess :
    let registry : Registry := ⟨[("Go", ⟨7, by decide⟩)]⟩
    let chess : Value := .num (.int 64 (by decide))
    let old := Catalog.new ⟨2023, 1, 0⟩ [⟨[("uid", chess), ("size", .str "8 by 8")]⟩]
    registry.Injective ∧ "size" ≠ "name" ∧ "name" ∉ ["size"] ∧
      goAroundChess.sortByName.2 = true ∧
      (registry.assign "old.json" goAroundChess).answer.map (·.assigned) = .ok 1 ∧
      (registry.assign "old.json" goAroundChess).SortsTo AssignReport.Rearranges
        (registry.assign "old.json" goAroundChess.sortByName.1) ∧
      (old.carry goAroundChess "size").answer = .ok ⟨1, 0⟩ ∧
      (old.carry goAroundChess "size").SortsTo Eq (old.carry goAroundChess.sortByName.1 "size") ∧
      (goAroundChess.unwrap ["size"]).2 = 1 ∧
      goAroundChess.sortByName.1.unwrap ["size"] =
        ((goAroundChess.unwrap ["size"]).1.sortByName.1, 1) := by
  intro registry chess old
  have injective : registry.Injective := Registry.injective_of_nodup (by decide)
  have other : "size" ≠ "name" := by decide
  have spared : "name" ∉ ["size"] := by decide
  obtain ⟨assigns, carries, unwraps⟩ := sortByName_commutes goAroundChess
  exact ⟨injective, other, spared, by rfl, by rfl, assigns registry "old.json" injective, by rfl,
    carries old "size" other, by rfl, unwraps ["size"] spared⟩

end Catalog

end GameCatalog
