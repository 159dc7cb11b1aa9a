import GameCatalog.Proofs.Assignment
import GameCatalog.Proofs.Registry

/-!
# The verdicts of a whole assignment

Where all uids of a catalog are valid, an assignment passes one verdict on every record, and its
records, its report and its log are read off these verdicts. `Judgement` lists them, each with the
uids that are held by then.
-/

namespace GameCatalog

/-- The uids of all records can be read: each is absent, null or a uid. -/
def Catalog.ValidUids (catalog : Catalog) : Prop :=
  ∀ record ∈ catalog.games, ∃ field, record.uid = .ok field

/-- The verdicts on records in order. -/
inductive Judgement (registry : Registry) : List Uid → List Record → List Verdict → Prop where
  | nil (held : List Uid) : Judgement registry held [] []
  | cons {held : List Uid} {record : Record} {rest : List Record} {verdict : Verdict}
      {verdicts : List Verdict} (first : Judged registry held record verdict)
      (others : Judgement registry (verdict.granted?.toList ++ held) rest verdicts) :
      Judgement registry held (record :: rest) (verdict :: verdicts)

namespace Verdict

def applyAll (records : List Record) (verdicts : List Verdict) : List Record :=
  records.zipWith (fun record verdict => verdict.apply record) verdicts

@[simp] theorem applyAll_nil : applyAll [] [] = [] := rfl

@[simp] theorem applyAll_cons (record : Record) (rest : List Record) (verdict : Verdict)
    (verdicts : List Verdict) :
    applyAll (record :: rest) (verdict :: verdicts) =
      verdict.apply record :: applyAll rest verdicts := rfl

theorem apply_of_changes_eq_false {verdict : Verdict} (h : verdict.changes = false)
    (record : Record) : verdict.apply record = record := by
  cases verdict with
  | unnamed | kept | contradicted => rfl
  | granted => cases h
  | refused name uid marked | unknown name marked =>
      cases marked with
      | true => cases h
      | false => rfl

@[simp] theorem usableName?_apply (verdict : Verdict) (record : Record) :
    (verdict.apply record).usableName? = record.usableName? := by
  rcases verdict.apply_cases record with h | ⟨uid, h⟩ <;> simp [h, Record.usableName?]

@[simp] theorem name?_apply (verdict : Verdict) (record : Record) :
    (verdict.apply record).name? = record.name? := by
  rcases verdict.apply_cases record with h | ⟨uid, h⟩ <;> simp [h]

theorem uid_apply_ok (verdict : Verdict) {record : Record} {field : UidField}
    (h : record.uid = .ok field) : ∃ after, (verdict.apply record).uid = .ok after := by
  rcases verdict.apply_cases record with ha | ⟨uid, ha⟩
  · exact ⟨field, by rw [ha, h]⟩
  · cases uid with
    | none => exact ⟨.unresolved, by rw [ha, Record.uid_setUid_none]⟩
    | some uid => exact ⟨.resolved uid, by rw [ha, Record.uid_setUid_some]⟩

/-- A record without a uid that is not given one has the mark in the end, be it new or not. -/
theorem apply_marked {record : Record} {field : UidField} (state : record.uid = .ok field)
    (unkeyed : field.resolved? = none) {verdict : Verdict}
    (h : (∃ name uid, verdict = .refused name uid (field = .absent)) ∨
      ∃ name, verdict = .unknown name (field = .absent)) :
    verdict.apply record = record.setUid none := by
  cases field with
  | resolved uid => cases unkeyed
  | absent => rcases h with ⟨name, uid, rfl⟩ | ⟨name, rfl⟩ <;> rfl
  | unresolved =>
      rw [Record.setUid_none_of_unresolved state]
      rcases h with ⟨name, uid, rfl⟩ | ⟨name, rfl⟩ <;> rfl

end Verdict

namespace Judged

variable {registry : Registry} {held : List Uid} {record : Record} {verdict : Verdict}

theorem verdict_eq (h : Judged registry held record verdict) :
    registry.verdict held record = .ok verdict := by
  cases h with
  | unnamed named => simp [Registry.verdict, named]
  | @kept name uid named state agrees =>
      cases bound : registry.lookup name with
      | none => simp [Registry.verdict, named, state, bound]
      | some found => simp [Registry.verdict, named, state, bound, agrees found bound]
  | contradicted named state bound differs =>
      simp [Registry.verdict, named, state, bound, differs]
  | granted named state unkeyed bound free =>
      simp [Registry.verdict_of_unkeyed named state unkeyed, bound, free]
  | refused named state unkeyed bound taken =>
      simp [Registry.verdict_of_unkeyed named state unkeyed, bound, taken]
  | unknown named state unkeyed bound =>
      simp [Registry.verdict_of_unkeyed named state unkeyed, bound]

theorem uidOf?_of_granted {uid : Uid} (h : Judged registry held record verdict)
    (granted : verdict.granted? = some uid) : registry.uidOf? record = some uid := by
  cases h with
  | granted named _ _ bound =>
      cases granted
      exact (Registry.uidOf?_of_usableName? named registry).trans bound
  | _ => cases granted

theorem congr {later : List Uid} (h : Judged registry held record verdict)
    (same : ∀ uid, registry.uidOf? record = some uid → (uid ∈ held ↔ uid ∈ later)) :
    Judged registry later record verdict := by
  cases h with
  | unnamed named => exact .unnamed named
  | kept named state agrees => exact .kept named state agrees
  | contradicted named state bound differs => exact .contradicted named state bound differs
  | granted named state unkeyed bound free =>
      have uid_eq := (Registry.uidOf?_of_usableName? named registry).trans bound
      exact .granted named state unkeyed bound ((same _ uid_eq).not.mp free)
  | refused named state unkeyed bound taken =>
      have uid_eq := (Registry.uidOf?_of_usableName? named registry).trans bound
      exact .refused named state unkeyed bound ((same _ uid_eq).mp taken)
  | unknown named state unkeyed bound => exact .unknown named state unkeyed bound

theorem bound_of_granted {uid : Uid} (h : Judged registry held record verdict)
    (granted : verdict.granted? = some uid) : ∃ name, registry.lookup name = some uid := by
  obtain ⟨name, -, bound⟩ := Option.bind_eq_some_iff.mp (h.uidOf?_of_granted granted)
  exact ⟨name, bound⟩

end Judged

namespace Registry

/-- A record with a valid uid gets a verdict. -/
theorem exists_judged {record : Record} {field : UidField} (state : record.uid = .ok field)
    (registry : Registry) (held : List Uid) :
    ∃ verdict, Judged registry held record verdict := by
  cases named : record.usableName? with
  | none => exact ⟨_, .unnamed named⟩
  | some name =>
      cases bound : registry.lookup name with
      | none =>
          cases field with
          | resolved uid => exact ⟨_, .kept named state (by simp [bound])⟩
          | absent | unresolved => exact ⟨_, .unknown named state rfl bound⟩
      | some uid =>
          cases field with
          | resolved existing =>
              by_cases agrees : uid = existing
              · exact ⟨_, .kept named state (by simp [bound, agrees])⟩
              · exact ⟨_, .contradicted named state bound agrees⟩
          | absent | unresolved =>
              by_cases taken : uid ∈ held
              · exact ⟨_, .refused named state rfl bound taken⟩
              · exact ⟨_, .granted named state rfl bound taken⟩

theorem heldUids_of_valid {records : List Record}
    (h : ∀ record ∈ records, ∃ field, record.uid = .ok field) :
    heldUids records = .ok (records.filterMap Record.resolved?) := by
  induction records with
  | nil => rfl
  | cons record rest ih =>
      obtain ⟨field, hf⟩ := h record List.mem_cons_self
      have hrest := ih fun other hm => h other (List.mem_cons_of_mem _ hm)
      simp only [heldUids, hf, hrest, ok_bind, List.filterMap_cons, Record.resolved?_of_uid hf]
      cases field.resolved? <;> rfl

theorem valid_of_heldUids {records : List Record} {held : List Uid}
    (h : heldUids records = .ok held) : ∀ record ∈ records, ∃ field, record.uid = .ok field := by
  induction records generalizing held with
  | nil => nofun
  | cons record rest ih =>
      simp only [heldUids, bind_eq_ok_iff] at h
      obtain ⟨field, hf, others, hrest, -⟩ := h
      exact List.forall_mem_cons.mpr ⟨⟨field, hf⟩, ih hrest⟩

end Registry

namespace Judgement

variable {registry : Registry} {held : List Uid} {records : List Record} {verdicts : List Verdict}

theorem exists_of_valid (registry : Registry) (held : List Uid) {records : List Record}
    (h : ∀ record ∈ records, ∃ field, record.uid = .ok field) :
    ∃ verdicts, Judgement registry held records verdicts := by
  induction records generalizing held with
  | nil => exact ⟨[], .nil held⟩
  | cons record rest ih =>
      obtain ⟨field, hf⟩ := h record List.mem_cons_self
      obtain ⟨verdict, first⟩ := registry.exists_judged hf held
      obtain ⟨verdicts, others⟩ := ih (verdict.granted?.toList ++ held) fun other hm =>
        h other (List.mem_cons_of_mem _ hm)
      exact ⟨verdict :: verdicts, .cons first others⟩

theorem length_eq (h : Judgement registry held records verdicts) :
    records.length = verdicts.length := by
  induction h with
  | nil => rfl
  | cons _ _ ih => rw [List.length_cons, List.length_cons, ih]

theorem congr {later : List Uid} (h : Judgement registry held records verdicts)
    (same : ∀ record ∈ records, ∀ uid, registry.uidOf? record = some uid →
      (uid ∈ held ↔ uid ∈ later)) : Judgement registry later records verdicts := by
  induction h generalizing later with
  | nil => exact .nil later
  | cons first others ih =>
      obtain ⟨sameFirst, sameRest⟩ := List.forall_mem_cons.mp same
      refine .cons (first.congr sameFirst) (ih fun record hm uid hu => ?_)
      rw [List.mem_append, List.mem_append, sameRest record hm uid hu]

theorem judge_eq (h : Judgement registry held records verdicts) :
    registry.judge held records = (Verdict.applyAll records verdicts, .ok verdicts) := by
  induction h with
  | nil => rfl
  | cons first others ih => simp [Registry.judge, first.verdict_eq, ih, Except.map]

theorem applyAll_of_unchanged (h : Judgement registry held records verdicts)
    (unchanged : verdicts.any Verdict.changes = false) :
    Verdict.applyAll records verdicts = records := by
  induction h with
  | nil => rfl
  | cons first others ih =>
      rw [List.any_cons, Bool.or_eq_false_iff] at unchanged
      rw [Verdict.applyAll_cons, Verdict.apply_of_changes_eq_false unchanged.1, ih unchanged.2]

theorem valid_applyAll (h : Judgement registry held records verdicts)
    (valid : ∀ record ∈ records, ∃ field, record.uid = .ok field) :
    ∀ record ∈ Verdict.applyAll records verdicts, ∃ field, record.uid = .ok field := by
  induction h with
  | nil => nofun
  | @cons held record rest verdict verdicts first others ih =>
      obtain ⟨⟨field, hf⟩, hrest⟩ := List.forall_mem_cons.mp valid
      exact List.forall_mem_cons.mpr ⟨verdict.uid_apply_ok hf, ih hrest⟩

/-- The uids that are resolved afterwards: those from before and those given away. -/
theorem perm_resolved (h : Judgement registry held records verdicts) :
    ((Verdict.applyAll records verdicts).filterMap Record.resolved?).Perm
      (records.filterMap Record.resolved? ++ verdicts.filterMap Verdict.granted?) := by
  induction h with
  | nil => exact .refl _
  | @cons held record rest verdict verdicts first others ih =>
      simp only [Verdict.applyAll_cons, List.filterMap_cons, first.resolved?_apply]
      cases granted : verdict.granted? with
      | some uid =>
          rw [(first.of_granted granted).1]
          exact (ih.cons uid).trans List.perm_middle.symm
      | none =>
          cases record.resolved? with
          | none => exact ih
          | some uid => exact ih.cons uid

theorem mem_resolved_applyAll (h : Judgement registry held records verdicts) {uid : Uid} :
    uid ∈ (Verdict.applyAll records verdicts).filterMap Record.resolved? ↔
      uid ∈ records.filterMap Record.resolved? ∨ uid ∈ verdicts.filterMap Verdict.granted? :=
  h.perm_resolved.mem_iff.trans List.mem_append

/-- What is given away is new, and given to one record only. -/
theorem nodup_granted (h : Judgement registry held records verdicts) :
    (verdicts.filterMap Verdict.granted?).Nodup ∧
      ∀ uid ∈ verdicts.filterMap Verdict.granted?, uid ∉ held := by
  induction h with
  | nil => simp
  | @cons held record rest verdict verdicts first others ih =>
      obtain ⟨nodup, free⟩ := ih
      rw [List.filterMap_cons]
      cases granted : verdict.granted? with
      | none =>
          rw [granted] at free
          exact ⟨nodup, free⟩
      | some given =>
          rw [granted] at free
          have later : ∀ uid ∈ verdicts.filterMap Verdict.granted?, uid ≠ given ∧ uid ∉ held :=
            fun uid hm => by simpa using free uid hm
          refine ⟨List.nodup_cons.mpr ⟨fun hm => (later given hm).1 rfl, nodup⟩, ?_⟩
          exact List.forall_mem_cons.mpr
            ⟨(first.of_granted granted).2, fun uid hm => (later uid hm).2⟩

theorem bound_of_granted (h : Judgement registry held records verdicts) {uid : Uid}
    (granted : uid ∈ verdicts.filterMap Verdict.granted?) :
    ∃ name, registry.lookup name = some uid := by
  induction h with
  | nil => cases granted
  | @cons held record rest verdict verdicts first others ih =>
      obtain ⟨found, hm, hg⟩ := List.mem_filterMap.mp granted
      rcases List.mem_cons.mp hm with rfl | hm
      · exact first.bound_of_granted hg
      · exact ih (List.mem_filterMap.mpr ⟨found, hm, hg⟩)

end Judgement

namespace Registry

/-- An assignment in a catalog with valid uids succeeds, and all it does is read off its
verdicts. -/
theorem assign_of_judgement {registry : Registry} {catalog : Catalog} (valid : catalog.ValidUids)
    {verdicts : List Verdict}
    (h : Judgement registry (catalog.games.filterMap Record.resolved?) catalog.games verdicts)
    (document : String) :
    registry.assign document catalog =
      { catalog := { catalog with games := Verdict.applyAll catalog.games verdicts }
        answer := .ok (.ofVerdicts document verdicts)
        events := verdicts.filterMap (Verdict.event? document) } := by
  simp [assign, heldUids_of_valid valid, h.judge_eq, Except.map]

/-- An assignment leaves all uids valid. -/
theorem valid_assign {catalog : Catalog} (valid : catalog.ValidUids) (registry : Registry)
    (document : String) : (registry.assign document catalog).catalog.ValidUids := by
  obtain ⟨verdicts, judged⟩ := Judgement.exists_of_valid registry
    (catalog.games.filterMap Record.resolved?) valid
  rw [assign_of_judgement valid judged]
  exact judged.valid_applyAll valid

theorem valid_of_assign {registry : Registry} {document : String} {catalog : Catalog}
    {report : AssignReport} (h : (registry.assign document catalog).answer = .ok report) :
    catalog.ValidUids := by
  cases hh : heldUids catalog.games with
  | error fault => simp [assign, hh, Edit.refuse] at h
  | ok held => exact valid_of_heldUids hh

theorem catalog_assign_of_unchanged {registry : Registry} {document : String} {catalog : Catalog}
    {report : AssignReport} (h : (registry.assign document catalog).answer = .ok report)
    (unchanged : report.changed = false) :
    (registry.assign document catalog).catalog = catalog := by
  have valid := valid_of_assign h
  obtain ⟨verdicts, judged⟩ := Judgement.exists_of_valid registry
    (catalog.games.filterMap Record.resolved?) valid
  rw [assign_of_judgement valid judged] at h ⊢
  cases h
  rw [judged.applyAll_of_unchanged unchanged]

end Registry

end GameCatalog
