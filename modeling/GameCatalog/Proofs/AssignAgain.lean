import GameCatalog.Proofs.AssignedFiles
import GameCatalog.Proofs.Registry
import GameCatalog.Proofs.Reload
import GameCatalog.Proofs.StagedAssignment

/-!
# Assigning a second time

Once a registry has assigned to a catalog, it finds nothing to change there. The authority itself
may have been rewritten: all uids that the registry knows are held in it, so none is given away, and
the registry that is built from it the next time is the same.
-/

namespace GameCatalog

/-! ## Verdicts that give nothing away -/

/-- A verdict that gives nothing away does no more than to mark. -/
theorem Judged.apply_eq_marked {registry : Registry} {held : List Uid} {record : Record}
    {verdict : Verdict} (h : Judged registry held record verdict)
    (ungranted : verdict.granted? = none) : verdict.apply record = record.marked := by
  cases h with
  | unnamed named => exact (Record.marked_of_unnamed named).symm
  | kept named state | contradicted named state =>
      exact (Record.marked_of_present state (by simp)).symm
  | granted => cases ungranted
  | @refused name uid field named state | @unknown name field named state =>
      cases field with
      | absent => exact (Record.marked_of_absent named state).symm
      | _ => exact (Record.marked_of_present state (by simp)).symm

namespace Judgement

variable {registry : Registry} {held : List Uid} {records : List Record} {verdicts : List Verdict}

/-- Where all uids that the registry knows are held, none is given away. -/
theorem granted?_eq_none (h : Judgement registry held records verdicts)
    (bound_held : ∀ name uid, registry.lookup name = some uid → uid ∈ held) :
    ∀ verdict ∈ verdicts, verdict.granted? = none := by
  intro verdict hm
  rw [Option.eq_none_iff_forall_ne_some]
  intro uid granted
  have given : uid ∈ verdicts.filterMap Verdict.granted? :=
    List.mem_filterMap.mpr ⟨verdict, hm, granted⟩
  obtain ⟨name, bound⟩ := h.bound_of_granted given
  exact h.nodup_granted.2 uid given (bound_held name uid bound)

theorem applyAll_eq_marked (h : Judgement registry held records verdicts)
    (ungranted : ∀ verdict ∈ verdicts, verdict.granted? = none) :
    Verdict.applyAll records verdicts = records.map Record.marked := by
  induction h with
  | nil => rfl
  | cons first others ih =>
      obtain ⟨hfirst, hothers⟩ := List.forall_mem_cons.mp ungranted
      rw [Verdict.applyAll_cons, first.apply_eq_marked hfirst, ih hothers, List.map_cons]

end Judgement

namespace Registry

theorem learn_marked (registry : Registry) (record : Record) :
    registry.learn record.marked = registry.learn record := by
  rcases record.marked_cases with same | ⟨state, set⟩
  · rw [same]
  · have state' : record.marked.uid = .ok .unresolved := by rw [set, Record.uid_setUid_none]
    simp only [learn, Record.usableName?_marked, state, state']

theorem learnAll_map_marked (registry : Registry) (records : List Record) :
    registry.learnAll (records.map Record.marked) = registry.learnAll records := by
  induction records generalizing registry with
  | nil => rfl
  | cons record rest ih => simp only [List.map_cons, learnAll, learn_marked, ih]

/-! ## Catalogs -/

variable {registry : Registry} {document : String} {catalog : Catalog} {report : AssignReport}

theorem assign_again (h : (registry.assign document catalog).answer = .ok report) :
    ∃ again, (registry.assign document (registry.assign document catalog).catalog).answer =
        .ok again ∧ again.changed = false ∧ again.faultCount = report.faultCount := by
  obtain ⟨_, again, direct, -, hagain, hdirect, -, conflicts, refused, -, -, -, unchanged⟩ :=
    (extends_of_lookup_eq fun _ => rfl).assign (valid_of_assign h) document document
  obtain rfl : report = direct := Except.ok.inj (h.symm.trans hdirect)
  refine ⟨again, hagain, (unchanged fun _ => rfl).1, ?_⟩
  rw [AssignReport.faultCount, AssignReport.faultCount, conflicts, refused]

/-- The registry of an authority gives nothing away to the authority. -/
theorem catalog_assign_own {authority : Catalog} (indexed : (ofCatalog authority).1 = .ok registry)
    (h : (registry.assign document authority).answer = .ok report) :
    (registry.assign document authority).catalog =
      { authority with games := authority.games.map Record.marked } := by
  have valid := valid_of_assign h
  obtain ⟨verdicts, judged⟩ := Judgement.exists_of_valid registry
    (authority.games.filterMap Record.resolved?) valid
  have ungranted := judged.granted?_eq_none fun _ _ => mem_resolved_of_lookup indexed
  rw [assign_of_judgement valid judged, judged.applyAll_eq_marked ungranted]

/-- Assigning with the registry of an authority to the authority leaves its registry. -/
theorem ofCatalog_assign {authority : Catalog} (indexed : (ofCatalog authority).1 = .ok registry)
    (h : (registry.assign document authority).answer = .ok report) :
    ofCatalog (registry.assign document authority).catalog = ofCatalog authority := by
  rw [catalog_assign_own indexed h]
  exact learnAll_map_marked empty authority.games

/-! ## Files -/

section Files

variable {path : Path} {text : String} {after : Catalog}

theorem ofFile_text_assign (restorable : catalog.Restorable) (registry : Registry)
    (document : String) (path : Path) (indent : Nat) :
    Catalog.ofFile path (.ok ((registry.assign document catalog).catalog.text indent)) =
      .ok (registry.assign document catalog).catalog := by
  have assigned : (Operation.apply catalog (.assign registry document)).Restorable :=
    restorable.apply nofun
  exact Catalog.ofFile_of_ofText (assigned.ofText_text indent) path

/-- Once a file has its new text, the same catalog is found there and nothing is to be changed. -/
theorem assignFile_again (h : registry.assignFile path (.ok text) = .ok (after, report))
    (restorable : ∀ catalog, Catalog.ofFile path (.ok text) = .ok catalog → catalog.Restorable)
    (indent : Nat) :
    ∃ again, registry.assignFile path (.ok ((registry.newText? indent text).getD text)) =
        .ok (after, again) ∧ again.changed = false ∧ again.faultCount = report.faultCount := by
  obtain ⟨catalog, hc, hreport, rfl⟩ := assignFile_eq_ok_iff.mp h
  rw [newText?_of_assignFile h]
  cases hchanged : report.changed with
  | false => exact ⟨report, h, hchanged, rfl⟩
  | true =>
      obtain ⟨again, hagain, unchanged, faults⟩ := assign_again hreport
      exact ⟨again, assignFile_eq_ok_iff.mpr
        ⟨_, ofFile_text_assign (restorable catalog hc) registry path.display path indent, hagain,
          catalog_assign_of_unchanged hagain unchanged⟩, unchanged, faults⟩

theorem ofCatalog_again {authority : Catalog}
    (loaded : Catalog.ofFile path (.ok text) = .ok authority) (restorable : authority.Restorable)
    (indexed : (ofCatalog authority).1 = .ok registry) (indent : Nat) :
    ∃ later, Catalog.ofFile path (.ok ((registry.newText? indent text).getD text)) = .ok later ∧
      (ofCatalog later).1 = .ok registry := by
  cases ha : registry.assignFile "" (.ok text) with
  | error fault =>
      rw [newText?, ha]
      exact ⟨authority, loaded, indexed⟩
  | ok outcome =>
      obtain ⟨after, report⟩ := outcome
      obtain ⟨found, hf, -⟩ := assignFile_rename ha path
      obtain ⟨catalog, hc, hreport, rfl⟩ := assignFile_eq_ok_iff.mp hf
      obtain rfl : authority = catalog := Except.ok.inj (loaded.symm.trans hc)
      rw [newText?_of_assignFile hf]
      cases found.changed with
      | false => exact ⟨authority, loaded, indexed⟩
      | true =>
          refine ⟨_, ofFile_text_assign restorable registry path.display path indent, ?_⟩
          rw [ofCatalog_assign indexed hreport, indexed]

end Files

end Registry

end GameCatalog
