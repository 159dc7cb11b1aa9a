import GameCatalog.Proofs.Judgement

/-!
# Decisions

An assignment is read off its decisions: the records in order, each next to its verdict. Of the uids
that are held by the time of a verdict, those that no record had from the start are claimed by the
records before it; thus a verdict depends on the records alone.
-/

namespace GameCatalog

namespace Registry

/-- Verdicts on records in order, each next to its record. -/
def Decides (registry : Registry) (held : List Uid) (decisions : List (Record × Verdict)) : Prop :=
  Judgement registry held (decisions.map (·.1)) (decisions.map (·.2))

variable {registry : Registry} {held : List Uid} {record : Record} {verdict : Verdict}
  {decisions rest : List (Record × Verdict)}

theorem decides_cons_iff :
    registry.Decides held ((record, verdict) :: rest) ↔
      Judged registry held record verdict ∧
        registry.Decides (verdict.granted?.toList ++ held) rest := by
  constructor
  · intro h
    cases h with
    | cons first others => exact ⟨first, others⟩
  · rintro ⟨first, others⟩
    exact .cons first others

theorem exists_decides (registry : Registry) (held : List Uid) {records : List Record}
    (valid : ∀ record ∈ records, ∃ field, record.uid = .ok field) :
    ∃ decisions, decisions.map Prod.fst = records ∧ registry.Decides held decisions := by
  obtain ⟨verdicts, judged⟩ := Judgement.exists_of_valid registry held valid
  have fst_eq := List.map_fst_zip (Nat.le_of_eq judged.length_eq)
  have snd_eq := List.map_snd_zip (Nat.le_of_eq judged.length_eq.symm)
  refine ⟨records.zip verdicts, fst_eq, ?_⟩
  unfold Decides
  rwa [fst_eq, snd_eq]

theorem applyAll_decisions (decisions : List (Record × Verdict)) :
    Verdict.applyAll (decisions.map Prod.fst) (decisions.map Prod.snd) =
      decisions.map fun decision => decision.2.apply decision.1 := by
  rw [Verdict.applyAll, List.zipWith_map, List.zipWith_self]

/-- What an assignment does, read off its decisions. -/
theorem assign_of_decides {catalog : Catalog} (valid : catalog.ValidUids)
    (games_eq : decisions.map Prod.fst = catalog.games)
    (h : registry.Decides (catalog.games.filterMap Record.resolved?) decisions)
    (document : String) :
    registry.assign document catalog =
      { catalog := { catalog with
          games := decisions.map fun decision => decision.2.apply decision.1 }
        answer := .ok (.ofVerdicts document (decisions.map (·.2)))
        events := (decisions.map (·.2)).filterMap (Verdict.event? document) } := by
  have judged : Judgement registry (catalog.games.filterMap Record.resolved?) catalog.games
      (decisions.map (·.2)) := games_eq ▸ h
  rw [assign_of_judgement valid judged, ← games_eq, applyAll_decisions]

/-- An assignment that succeeds has decisions. -/
theorem exists_decides_of_assign {catalog : Catalog} {document : String} {report : AssignReport}
    (h : (registry.assign document catalog).answer = .ok report) :
    ∃ decisions, decisions.map Prod.fst = catalog.games ∧
      registry.Decides (catalog.games.filterMap Record.resolved?) decisions ∧
      (registry.assign document catalog).catalog =
        { catalog with games := decisions.map fun decision => decision.2.apply decision.1 } ∧
      report = .ofVerdicts document (decisions.map (·.2)) := by
  have valid := valid_of_assign h
  obtain ⟨decisions, games_eq, decided⟩ :=
    registry.exists_decides (catalog.games.filterMap Record.resolved?) valid
  rw [assign_of_decides valid games_eq decided] at h ⊢
  exact ⟨decisions, games_eq, decided, rfl, (Except.ok.inj h).symm⟩

/-! ## Claims -/

/-- The uid that a record claims: one without a uid claims that of its name. -/
def claim? (registry : Registry) (record : Record) : Option Uid :=
  match record.resolved? with
  | none => registry.uidOf? record
  | some _ => none

theorem claim?_of_unkeyed (unkeyed : record.resolved? = none) :
    registry.claim? record = registry.uidOf? record := by
  rw [claim?, unkeyed]

theorem claim?_eq_some_iff {uid : Uid} :
    registry.claim? record = some uid ↔
      record.resolved? = none ∧ registry.uidOf? record = some uid := by
  unfold claim?
  split <;> simp_all

/-- A uid that is claimed is held from then on, whether the record got it or was refused. -/
theorem mem_held_iff (h : Judged registry held record verdict) {uid : Uid} :
    uid ∈ verdict.granted?.toList ++ held ↔ uid ∈ (registry.claim? record).toList ++ held := by
  cases h with
  | unnamed named =>
      have unclaimed : registry.claim? record = none := by
        unfold claim? uidOf?
        split <;> simp [named]
      simp [unclaimed, Verdict.granted?]
  | kept named state | contradicted named state =>
      have unclaimed : registry.claim? record = none := by
        rw [claim?, Record.resolved?_of_uid state]
        rfl
      simp [unclaimed, Verdict.granted?]
  | granted named state unkeyed bound =>
      have resolved_eq := (Record.resolved?_of_uid state).trans unkeyed
      have claimed := (claim?_of_unkeyed resolved_eq).trans
        ((uidOf?_of_usableName? named registry).trans bound)
      rw [claimed, Verdict.granted?]
  | @refused name taken_uid field named state unkeyed bound taken =>
      have resolved_eq := (Record.resolved?_of_uid state).trans unkeyed
      have claimed := (claim?_of_unkeyed resolved_eq).trans
        ((uidOf?_of_usableName? named registry).trans bound)
      have among : uid = taken_uid → uid ∈ held := by
        rintro rfl
        exact taken
      simp only [claimed, Verdict.granted?, Option.toList_none, Option.toList_some,
        List.nil_append, List.singleton_append, List.mem_cons]
      exact ⟨.inr, fun h => h.elim among id⟩
  | unknown named state unkeyed unbound =>
      have resolved_eq := (Record.resolved?_of_uid state).trans unkeyed
      have unclaimed := (claim?_of_unkeyed resolved_eq).trans
        ((uidOf?_of_usableName? named registry).trans unbound)
      simp [unclaimed, Verdict.granted?]

namespace Decides

/-- A record is judged by the uids held from the start and those claimed by the records before. -/
theorem judged_at (h : registry.Decides held decisions) {position : Nat}
    (found : decisions[position]? = some (record, verdict)) :
    Judged registry
      (((decisions.take position).map Prod.fst).filterMap registry.claim? ++ held)
      record verdict := by
  induction decisions generalizing held position with
  | nil => simp at found
  | cons decision rest ih =>
      obtain ⟨first, answer⟩ := decision
      obtain ⟨judged, others⟩ := decides_cons_iff.mp h
      cases position with
      | zero =>
          simp only [List.getElem?_cons_zero, Option.some.injEq, Prod.mk.injEq] at found
          obtain ⟨rfl, rfl⟩ := found
          exact judged
      | succ position =>
          refine (ih others found).congr fun uid _ => ?_
          rw [List.mem_append, mem_held_iff judged, List.take_succ_cons, List.map_cons,
            List.filterMap_cons]
          cases registry.claim? first <;> simp [or_left_comm]

theorem judged_of_mem (h : registry.Decides held decisions)
    (hm : (record, verdict) ∈ decisions) : ∃ later, Judged registry later record verdict := by
  obtain ⟨position, found⟩ := List.mem_iff_getElem?.mp hm
  exact ⟨_, h.judged_at found⟩

/-! ## Uids that are given away -/

theorem perm_resolved (h : registry.Decides held decisions) :
    ((decisions.map fun decision => decision.2.apply decision.1).filterMap
      Record.resolved?).Perm
      ((decisions.map Prod.fst).filterMap Record.resolved? ++
        (decisions.map Prod.snd).filterMap Verdict.granted?) := by
  rw [← applyAll_decisions]
  exact Judgement.perm_resolved h

end Decides

end Registry

end GameCatalog
