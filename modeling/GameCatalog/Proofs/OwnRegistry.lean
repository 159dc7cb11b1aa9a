import GameCatalog.Proofs.AssignAgain
import GameCatalog.Proofs.AssignmentReport

/-!
# Catalogs that are their own authority

A catalog to which the registry that is built from it is assigned gets no uid from there: whatever
the registry binds is held already. The records with a name but without the field are marked, those
that contradict the first uid of their name and those that could have it from another record are
reported, and the registry is the same afterwards.
-/

namespace GameCatalog

open Json

namespace Record

theorem filterMap_refusal?_marked (records : List Record) (bound : String → Option Uid)
    (document : String) :
    (records.map marked).filterMap (·.refusal? bound document) =
      records.filterMap (·.refusal? bound document) := by
  rw [List.filterMap_map]
  refine List.filterMap_congr fun record _ => ?_
  simp [refusal?]

theorem refusal?_of_bound {record : Record} {name : String} {uid : Uid}
    {bound : String → Option Uid} (named : record.usableName? = some name)
    (unkeyed : record.resolved? = none) (found : bound name = some uid) (document : String) :
    record.refusal? bound document = some ⟨name, document, uid⟩ := by
  simp [refusal?, named, unkeyed, found]

end Record

/-- What becomes of a catalog that is its own authority, and what is reported of it. -/
structure Catalog.AssignedByItself (before after : Catalog) (document : String)
    (report : AssignReport) : Prop where
  assigned : report.assigned = 0
  marks : after = { before with games := before.games.map Record.marked }
  keeps : ∀ (position : Nat) (record : Record) (uid : Uid),
    before.games[position]? = some record → record.uid = .ok (.resolved uid) →
      after.games[position]? = some record
  conflicts : report.conflicts =
    before.games.filterMap (·.conflict? before.uidOfName? document)
  refused : report.refused = before.games.filterMap (·.refusal? before.uidOfName? document)
  refuses : ∀ record ∈ before.games, ∀ keyed ∈ before.games, ∀ name uid,
    record.usableName? = some name → record.resolved? = none →
      keyed.usableName? = some name → keyed.uid = .ok (.resolved uid) →
        ∃ first, before.uidOfName? name = some first ∧ ⟨name, document, first⟩ ∈ report.refused
  registry : (Registry.ofCatalog after).1 = (Registry.ofCatalog before).1

namespace Registry

variable {registry : Registry} {document : String} {catalog : Catalog} {report : AssignReport}

/-- Assigning with the registry of a catalog to that catalog gives no uid away, marks what has no uid
field and leaves the registry of the catalog. -/
theorem assign_own (indexed : (ofCatalog catalog).1 = .ok registry)
    (h : (registry.assign document catalog).answer = .ok report) :
    catalog.AssignedByItself (registry.assign document catalog).catalog document report := by
  have marks := catalog_assign_own indexed h
  obtain ⟨decisions, games_eq, decided, catalog_eq, report_eq⟩ := exists_decides_of_assign h
  have applied : (decisions.map fun decision => decision.2.apply decision.1) =
      catalog.games.map Record.marked := congrArg Catalog.games (catalog_eq.symm.trans marks)
  have conflicts_eq := decided.conflicts_eq document
  rw [games_eq, lookup_ofCatalog indexed] at conflicts_eq
  have refused_eq : report.refused =
      catalog.games.filterMap (·.refusal? catalog.uidOfName? document) := by
    rw [← Record.filterMap_refusal?_marked, ← applied, ← lookup_ofCatalog indexed, report_eq]
    exact decided.refused_eq document
  refine
    { assigned := ?_
      marks := marks
      keeps := fun position record uid found state => ?_
      conflicts := report_eq ▸ conflicts_eq
      refused := refused_eq
      refuses := fun record hm keyed hk name uid named unkeyed named' state => ?_
      registry := congrArg Prod.fst (ofCatalog_assign indexed h) }
  · have ungranted := Judgement.granted?_eq_none decided fun _ _ => mem_resolved_of_lookup indexed
    rw [report_eq]
    exact List.length_eq_zero_iff.mpr (List.filterMap_eq_nil_iff.mpr ungranted)
  · rw [marks, List.getElem?_map, found, Option.map_some,
      Record.marked_of_present state (by simp)]
  · obtain ⟨first, bound⟩ := Catalog.exists_uidOfName?_iff.mpr ⟨keyed, hk, named', uid, state⟩
    refine ⟨first, bound, refused_eq ▸ ?_⟩
    exact List.mem_filterMap.mpr ⟨record, hm, Record.refusal?_of_bound named unkeyed bound document⟩

/-- Go twice with a uid and twice without, Weiqi with the first uid of Go, a new game, and a record
without a name. -/
def gosAndWeiqi : Catalog :=
  .new ⟨2024, 1, 0⟩ [⟨[("name", .str "Go")]⟩,
    ⟨[("name", .str "Go"), ("uid", .num (.int 14 (by decide)))]⟩,
    ⟨[("uid", .num (.int 15 (by decide))), ("name", .str "Go")]⟩,
    ⟨[("name", .str "Go"), ("uid", .null)]⟩,
    ⟨[("name", .str "Weiqi"), ("uid", .num (.int 14 (by decide)))]⟩, ⟨[("name", .str "Hex")]⟩,
    ⟨[("name", .str "")]⟩]

/-- The second uid of Go is a conflict, and neither of the other two gets the first one. -/
theorem assign_own_gosAndWeiqi :
    let registry : Registry := ⟨[("Go", ⟨14, by decide⟩), ("Weiqi", ⟨14, by decide⟩)]⟩
    let report : AssignReport :=
      { changed := true
        assigned := 0
        unresolved := ["Go", "Go", "Hex"]
        skipped := 1
        conflicts := [⟨"Go", "games.json", ⟨15, by decide⟩, ⟨14, by decide⟩⟩]
        refused := [⟨"Go", "games.json", ⟨14, by decide⟩⟩, ⟨"Go", "games.json", ⟨14, by decide⟩⟩] }
    let assigned := registry.assign "games.json" gosAndWeiqi
    (ofCatalog gosAndWeiqi).1 = .ok registry ∧ assigned.answer = .ok report ∧
      gosAndWeiqi.AssignedByItself assigned.catalog "games.json" report ∧
      assigned.catalog.games.map (·.fields.names) = [["name", "uid"], ["name", "uid"],
        ["uid", "name"], ["name", "uid"], ["name", "uid"], ["name", "uid"], ["name"]] := by
  intro registry report assigned
  have indexed : (ofCatalog gosAndWeiqi).1 = .ok registry := by rfl
  have succeeds : assigned.answer = .ok report := by rfl
  exact ⟨indexed, succeeds, assign_own indexed succeeds, by rfl⟩

end Registry

end GameCatalog
