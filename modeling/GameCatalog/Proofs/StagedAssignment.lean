import GameCatalog.Proofs.Judgement
import GameCatalog.Proofs.Registry
import Mathlib.Data.List.Basic

/-!
# Assigning in stages

A registry may learn names over time. Assigning with an earlier state of it and then with a later
one leaves the same catalog as assigning with the later one at once, and in the end the same records
need a decision by hand. A second pass with the same registry changes nothing.
-/

namespace GameCatalog

/-! ## One record -/

/-- The verdicts on one record when two registries judge it in turn, and when the second one judges
it alone. -/
structure Stage where
  first : Verdict
  second : Verdict
  direct : Verdict

/-- How the three verdicts go together. -/
inductive Stage.Fits : Stage → Prop where
  | unnamed : Fits ⟨.unnamed, .unnamed, .unnamed⟩
  | kept : Fits ⟨.kept, .kept, .kept⟩
  | contradicted (name : String) (existing authoritative : Uid) :
      Fits ⟨.contradicted name existing authoritative, .contradicted name existing authoritative,
        .contradicted name existing authoritative⟩
  | contradictedLater (name : String) (existing authoritative : Uid) :
      Fits ⟨.kept, .contradicted name existing authoritative,
        .contradicted name existing authoritative⟩
  | granted (name : String) (uid : Uid) : Fits ⟨.granted name uid, .kept, .granted name uid⟩
  | grantedLater (name : String) (uid : Uid) (marked : Bool) :
      Fits ⟨.unknown name marked, .granted name uid, .granted name uid⟩
  | refused (name : String) (uid : Uid) (marked : Bool) :
      Fits ⟨.refused name uid marked, .refused name uid false, .refused name uid marked⟩
  | refusedLater (name : String) (uid : Uid) (marked : Bool) :
      Fits ⟨.unknown name marked, .refused name uid false, .refused name uid marked⟩
  | unknown (name : String) (marked : Bool) :
      Fits ⟨.unknown name marked, .unknown name false, .unknown name marked⟩

namespace Stage.Fits

variable {stage : Stage}

theorem apply_eq (h : stage.Fits) (record : Record) :
    stage.second.apply (stage.first.apply record) = stage.direct.apply record := by
  cases h with
  | grantedLater name uid marked =>
      cases marked with
      | false => rfl
      | true => exact record.setUid_setUid none (some uid)
  | refused name uid marked | refusedLater name uid marked | unknown name marked =>
      cases marked <;> rfl
  | _ => rfl

theorem unresolved?_eq (h : stage.Fits) : stage.second.unresolved? = stage.direct.unresolved? := by
  cases h <;> rfl

theorem conflict?_eq (h : stage.Fits) (document : String) :
    stage.second.conflict? document = stage.direct.conflict? document := by
  cases h <;> rfl

theorem refused?_eq (h : stage.Fits) (document : String) :
    stage.second.refused? document = stage.direct.refused? document := by
  cases h <;> rfl

theorem unnamed_iff (h : stage.Fits) : stage.second = .unnamed ↔ stage.direct = .unnamed := by
  cases h <;> simp

/-- One of the two stages gives away what the second registry alone would give. -/
theorem granted?_eq (h : stage.Fits) :
    stage.direct.granted? = stage.first.granted?.or stage.second.granted? ∧
      (stage.first.granted? = none ∨ stage.second.granted? = none) := by
  cases h <;> simp [Verdict.granted?]

/-- What is given away in the second stage goes to a name that the first registry does not bind. -/
theorem granted_second (h : stage.Fits) {uid : Uid} (granted : stage.second.granted? = some uid) :
    ∃ name marked, stage.first = .unknown name marked ∧ stage.second = .granted name uid := by
  cases h with
  | grantedLater name given marked =>
      cases granted
      exact ⟨name, marked, rfl, rfl⟩
  | _ => cases granted

theorem changes_eq (h : stage.Fits) : stage.second.changes = stage.second.granted?.isSome := by
  cases h <;> rfl

end Stage.Fits

/-! ## Registries that learn -/

/-- The second registry binds what the first one binds, and gives no uid of the first one to a
further name. -/
structure Registry.Extends (second first : Registry) : Prop where
  lookup_eq : ∀ {name : String} {uid : Uid}, first.lookup name = some uid →
    second.lookup name = some uid
  lookup_of_bound : ∀ {name other : String} {uid : Uid}, second.lookup name = some uid →
    first.lookup other = some uid → first.lookup name = some uid

/-- What the second registry binds to a name that the first one does not know is no uid of the
first. -/
theorem Registry.Extends.fresh {first second : Registry} (h : second.Extends first) {name : String}
    {uid : Uid} (unbound : first.lookup name = none) (bound : second.lookup name = some uid)
    (other : String) : first.lookup other ≠ some uid := by
  intro hother
  rw [h.lookup_of_bound bound hother] at unbound
  cases unbound

/-- How the uids that are held go together: in the first stage, in the second one, and when the
second registry judges alone. Uids that the first registry binds are dealt with in the first stage,
all others in the second. -/
structure HeldInStages (first : Registry) (heldFirst heldSecond held : List Uid) : Prop where
  bound : ∀ {name : String} {uid : Uid}, first.lookup name = some uid →
    (uid ∈ heldFirst ↔ uid ∈ held)
  unbound : ∀ {uid : Uid}, (∀ name, first.lookup name ≠ some uid) →
    (uid ∈ heldSecond ↔ uid ∈ held)
  subset : heldFirst ⊆ heldSecond

/-- A record without a uid that is not given one has the mark of an unresolved record in the end. -/
theorem Verdict.uid_apply_marked {record : Record} {field : UidField}
    (state : record.uid = .ok field) (unkeyed : field.resolved? = none) {verdict : Verdict}
    (h : (∃ name uid, verdict = .refused name uid (field = .absent)) ∨
      ∃ name, verdict = .unknown name (field = .absent)) :
    (verdict.apply record).uid = .ok .unresolved := by
  rw [Verdict.apply_marked state unkeyed h, Record.uid_setUid_none]

namespace Judged

variable {first second : Registry} {heldFirst heldSecond held : List Uid} {record : Record}
  {verdict : Verdict}

/-- A uid that a record has stays with it in both stages, unless the second registry contradicts
it. -/
theorem exists_stage_of_kept {name : String} {uid : Uid} (named : record.usableName? = some name)
    (state : record.uid = .ok (.resolved uid)) (second : Registry) (heldSecond held : List Uid) :
    ∃ stage : Stage, stage.first = .kept ∧ stage.Fits ∧
      Judged second heldSecond record stage.second ∧ Judged second held record stage.direct := by
  by_cases agrees : ∀ found, second.lookup name = some found → found = uid
  · exact ⟨_, rfl, .kept, .kept named state agrees, .kept named state agrees⟩
  · push Not at agrees
    obtain ⟨found, bound, differs⟩ := agrees
    exact ⟨_, rfl, .contradictedLater _ _ _, .contradicted named state bound differs,
      .contradicted named state bound differs⟩

/-- What becomes of a name that the first registry does not bind is up to the second one. -/
theorem exists_stage_of_unknown (extends_ : second.Extends first)
    (stages : HeldInStages first heldFirst heldSecond held) {name : String} {field : UidField}
    (named : record.usableName? = some name) (state : record.uid = .ok field)
    (unkeyed : field.resolved? = none) (unbound : first.lookup name = none) :
    ∃ stage : Stage, stage.first = .unknown name (field = .absent) ∧ stage.Fits ∧
      Judged second heldSecond ((Verdict.unknown name (field = .absent)).apply record)
        stage.second ∧
      Judged second held record stage.direct := by
  have named' : ((Verdict.unknown name (field = .absent)).apply record).usableName? =
      some name := by rw [Verdict.usableName?_apply, named]
  have marked := Verdict.uid_apply_marked state unkeyed (.inr ⟨name, rfl⟩)
  cases bound : second.lookup name with
  | none =>
      have unknownAgain : Judged second heldSecond _ (.unknown name false) :=
        .unknown named' marked rfl bound
      exact ⟨_, rfl, .unknown name _, unknownAgain, .unknown named state unkeyed bound⟩
  | some uid =>
      have same_held := stages.unbound (extends_.fresh unbound bound)
      by_cases taken : uid ∈ held
      · have refusedNow := Judged.refused named' marked rfl bound (same_held.mpr taken)
        exact ⟨_, rfl, .refusedLater name uid _, refusedNow,
          .refused named state unkeyed bound taken⟩
      · have freeSecond : uid ∉ heldSecond := fun h => taken (same_held.mp h)
        exact ⟨_, rfl, .grantedLater name uid _, .granted named' marked rfl bound freeSecond,
          .granted named state unkeyed bound taken⟩

/-- The verdict of the first registry is the first one of a stage. -/
theorem exists_stage (extends_ : second.Extends first)
    (stages : HeldInStages first heldFirst heldSecond held)
    (h : Judged first heldFirst record verdict) :
    ∃ stage : Stage, stage.first = verdict ∧ stage.Fits ∧
      Judged second heldSecond (verdict.apply record) stage.second ∧
      Judged second held record stage.direct := by
  cases h with
  | unnamed named => exact ⟨_, rfl, .unnamed, .unnamed named, .unnamed named⟩
  | kept named state => exact exists_stage_of_kept named state second heldSecond held
  | contradicted named state bound differs =>
      have bound' := extends_.lookup_eq bound
      exact ⟨_, rfl, .contradicted _ _ _, .contradicted named state bound' differs,
        .contradicted named state bound' differs⟩
  | @granted name uid field named state unkeyed bound free =>
      have bound' := extends_.lookup_eq bound
      have named' : ((Verdict.granted name uid).apply record).usableName? = some name := by
        rw [Verdict.usableName?_apply, named]
      have state' : ((Verdict.granted name uid).apply record).uid = .ok (.resolved uid) :=
        record.uid_setUid_some uid
      exact ⟨_, rfl, .granted name uid, .kept named' state' (by simp [bound']),
        .granted named state unkeyed bound' fun taken => free ((stages.bound bound).mpr taken)⟩
  | @refused name uid field named state unkeyed bound taken =>
      have bound' := extends_.lookup_eq bound
      have named' : ((Verdict.refused name uid (field = .absent)).apply record).usableName? =
          some name := by rw [Verdict.usableName?_apply, named]
      have marked := Verdict.uid_apply_marked state unkeyed (.inl ⟨name, uid, rfl⟩)
      have refusedAgain := Judged.refused named' marked rfl bound' (stages.subset taken)
      exact ⟨_, rfl, .refused name uid _, refusedAgain,
        .refused named state unkeyed bound' ((stages.bound bound).mp taken)⟩
  | unknown named state unkeyed unbound =>
      exact exists_stage_of_unknown extends_ stages named state unkeyed unbound

end Judged

/-! ## All records -/

section Lists

variable {first second : Registry} {heldFirst heldSecond held : List Uid}

/-- Before the first record the second registry alone finds what the first one finds, and the second
stage finds what the first one leaves. -/
theorem HeldInStages.start {records : List Record} {verdicts : List Verdict}
    (judged : Judgement first (records.filterMap Record.resolved?) records verdicts) :
    HeldInStages first (records.filterMap Record.resolved?)
      ((Verdict.applyAll records verdicts).filterMap Record.resolved?)
      (records.filterMap Record.resolved?) := by
  refine ⟨fun _ => Iff.rfl, fun {uid} unbound => ?_, fun uid hm => ?_⟩
  · rw [judged.mem_resolved_applyAll, or_iff_left]
    intro granted
    obtain ⟨name, bound⟩ := judged.bound_of_granted granted
    exact unbound name bound
  · exact judged.mem_resolved_applyAll.mpr (.inl hm)

theorem HeldInStages.step (extends_ : second.Extends first)
    (stages : HeldInStages first heldFirst heldSecond held) {record : Record} {stage : Stage}
    (fits : stage.Fits) (judged : Judged first heldFirst record stage.first)
    (judgedSecond : Judged second heldSecond (stage.first.apply record) stage.second)
    (given_held : ∀ uid, stage.first.granted? = some uid → uid ∈ heldSecond) :
    HeldInStages first (stage.first.granted?.toList ++ heldFirst)
      (stage.second.granted?.toList ++ heldSecond) (stage.direct.granted?.toList ++ held) := by
  obtain ⟨direct, apart⟩ := fits.granted?_eq
  cases hf : stage.first.granted? with
  | some given =>
      have hs : stage.second.granted? = none := by simpa [hf] using apart
      obtain ⟨owner, howner⟩ := judged.bound_of_granted hf
      rw [direct, hf, hs]
      refine ⟨fun bound => ?_, fun {uid} unbound => ?_, ?_⟩
      · simp [stages.bound bound]
      · have hne : uid ≠ given := fun e => unbound owner (e ▸ howner)
        simp [stages.unbound unbound, hne]
      · exact List.cons_subset.mpr ⟨given_held given hf, stages.subset⟩
  | none =>
      cases hs : stage.second.granted? with
      | none =>
          rw [direct, hf, hs]
          exact stages
      | some given =>
          have fresh : ∀ other, first.lookup other ≠ some given := by
            obtain ⟨name, marked, hfirst, hsecond⟩ := fits.granted_second hs
            rw [hfirst] at judged
            rw [hsecond] at judgedSecond
            cases judged with
            | unknown _ _ _ unbound =>
                cases judgedSecond with
                | granted _ _ _ bound => exact extends_.fresh unbound bound
          rw [direct, hf, hs]
          refine ⟨fun {name uid} bound => ?_, fun unbound => ?_, ?_⟩
          · have hne : uid ≠ given := fun e => fresh name (e ▸ bound)
            simp [stages.bound bound, hne]
          · simp [stages.unbound unbound]
          · exact List.subset_cons_of_subset given stages.subset

/-- The verdicts of the first registry are the first ones of stages, as long as the second stage
knows which uids the first one gives away. -/
theorem Judgement.exists_stages (extends_ : second.Extends first) {records : List Record}
    {verdicts : List Verdict} (h : Judgement first heldFirst records verdicts)
    (stages : HeldInStages first heldFirst heldSecond held)
    (given_held : ∀ uid ∈ verdicts.filterMap Verdict.granted?, uid ∈ heldSecond) :
    ∃ stages : List Stage, stages.map Stage.first = verdicts ∧ (∀ stage ∈ stages, stage.Fits) ∧
      Judgement second heldSecond (Verdict.applyAll records verdicts)
        (stages.map Stage.second) ∧
      Judgement second held records (stages.map Stage.direct) := by
  induction h generalizing heldSecond held with
  | nil => exact ⟨[], rfl, List.forall_mem_nil _, .nil _, .nil _⟩
  | @cons heldFirst record rest verdict verdicts judged others ih =>
      obtain ⟨stage, rfl, fits, judgedSecond, judgedDirect⟩ := judged.exists_stage extends_ stages
      have given_first : ∀ uid, stage.first.granted? = some uid → uid ∈ heldSecond :=
        fun uid hg => given_held uid (List.mem_filterMap.mpr ⟨_, List.mem_cons_self, hg⟩)
      have next := stages.step extends_ fits judged judgedSecond given_first
      have given_rest : ∀ uid ∈ verdicts.filterMap Verdict.granted?,
          uid ∈ stage.second.granted?.toList ++ heldSecond := by
        intro uid hm
        obtain ⟨other, hother, hg⟩ := List.mem_filterMap.mp hm
        exact List.mem_append_right _
          (given_held uid (List.mem_filterMap.mpr ⟨other, List.mem_cons_of_mem _ hother, hg⟩))
      obtain ⟨later, rfl, fitsLater, secondLater, directLater⟩ := ih next given_rest
      exact ⟨stage :: later, rfl, List.forall_mem_cons.mpr ⟨fits, fitsLater⟩,
        .cons judgedSecond secondLater, .cons judgedDirect directLater⟩

end Lists

/-! ## The catalog and the reports -/

section Reports

variable {stages : List Stage} (fits : ∀ stage ∈ stages, stage.Fits)

include fits

theorem applyAll_stages (records : List Record) :
    Verdict.applyAll (Verdict.applyAll records (stages.map Stage.first))
        (stages.map Stage.second) = Verdict.applyAll records (stages.map Stage.direct) := by
  induction stages generalizing records with
  | nil => simp [Verdict.applyAll]
  | cons stage rest ih =>
      cases records with
      | nil => simp [Verdict.applyAll]
      | cons record records =>
          obtain ⟨hstage, hrest⟩ := List.forall_mem_cons.mp fits
          simp [hstage.apply_eq record, ih hrest]

theorem filterMap_second {f : Verdict → Option α}
    (h : ∀ {stage : Stage}, stage.Fits → f stage.second = f stage.direct) :
    (stages.map Stage.second).filterMap f = (stages.map Stage.direct).filterMap f := by
  rw [List.filterMap_map, List.filterMap_map]
  exact List.filterMap_congr fun stage hm => h (fits stage hm)

theorem count_unnamed_second :
    (stages.map Stage.second).count .unnamed = (stages.map Stage.direct).count .unnamed := by
  rw [List.count_eq_countP, List.count_eq_countP, List.countP_map, List.countP_map]
  refine List.countP_congr fun stage hm => ?_
  simp [(fits stage hm).unnamed_iff]

theorem length_granted_stages :
    ((stages.map Stage.first).filterMap Verdict.granted?).length +
        ((stages.map Stage.second).filterMap Verdict.granted?).length =
      ((stages.map Stage.direct).filterMap Verdict.granted?).length := by
  induction stages with
  | nil => rfl
  | cons stage rest ih =>
      obtain ⟨hstage, hrest⟩ := List.forall_mem_cons.mp fits
      obtain ⟨direct, apart⟩ := hstage.granted?_eq
      have later := ih hrest
      cases hf : stage.first.granted? <;> cases hs : stage.second.granted? <;>
        simp_all <;> omega

theorem changes_second (h : (stages.map Stage.second).filterMap Verdict.granted? = []) :
    (stages.map Stage.second).any Verdict.changes = false := by
  rw [List.filterMap_eq_nil_iff, List.forall_mem_map] at h
  rw [List.any_eq_false, List.forall_mem_map]
  intro stage hm
  rw [(fits stage hm).changes_eq, h stage hm]
  simp

end Reports

namespace Registry

variable {first second : Registry}

theorem extends_of_injective (injective : second.Injective)
    (learns : ∀ name uid, first.lookup name = some uid → second.lookup name = some uid) :
    second.Extends first := by
  refine ⟨fun bound => learns _ _ bound, fun {name other uid} bound hother => ?_⟩
  rw [injective bound (learns other uid hother)]
  exact hother

theorem extends_of_lookup_eq (same : ∀ name, second.lookup name = first.lookup name) :
    second.Extends first :=
  ⟨fun bound => (same _).trans bound, fun bound _ => (same _).symm.trans bound⟩

/-- Judging only looks names up. -/
theorem judge_congr (same : ∀ name, second.lookup name = first.lookup name) (held : List Uid)
    (records : List Record) : second.judge held records = first.judge held records := by
  induction records generalizing held with
  | nil => rfl
  | cons record rest ih => simp only [judge, verdict, same, ih]

/-- Assigning with two registries in turn, of which the second extends the first, leaves the catalog
and the report of faults of the second one alone. -/
theorem Extends.assign (extends_ : second.Extends first) {catalog : Catalog}
    (valid : catalog.ValidUids) (label document : String) :
    ∃ staged report direct : AssignReport,
      (first.assign label catalog).answer = .ok staged ∧
      (second.assign document (first.assign label catalog).catalog).answer = .ok report ∧
      (second.assign document catalog).answer = .ok direct ∧
      (second.assign document (first.assign label catalog).catalog).catalog =
        (second.assign document catalog).catalog ∧
      report.conflicts = direct.conflicts ∧ report.refused = direct.refused ∧
      report.unresolved = direct.unresolved ∧ report.skipped = direct.skipped ∧
      staged.assigned + report.assigned = direct.assigned ∧
      ((∀ name, second.lookup name = first.lookup name) →
        report.changed = false ∧ report.assigned = 0) := by
  obtain ⟨verdicts, judged⟩ := Judgement.exists_of_valid first
    (catalog.games.filterMap Record.resolved?) valid
  obtain ⟨stages, rfl, fits, judgedSecond, judgedDirect⟩ :=
    judged.exists_stages extends_ (.start judged) fun uid hm =>
      judged.mem_resolved_applyAll.mpr (.inr hm)
  have first_eq := assign_of_judgement valid judged label
  have direct_eq := assign_of_judgement valid judgedDirect document
  have validSecond : Catalog.ValidUids { catalog with
      games := Verdict.applyAll catalog.games (stages.map Stage.first) } :=
    judged.valid_applyAll valid
  have second_eq := assign_of_judgement validSecond judgedSecond document
  have assigned := length_granted_stages fits
  rw [first_eq, direct_eq, second_eq, applyAll_stages fits]
  refine ⟨_, _, _, rfl, rfl, rfl, rfl, filterMap_second fits (·.conflict?_eq document),
    filterMap_second fits (·.refused?_eq document), filterMap_second fits (·.unresolved?_eq),
    count_unnamed_second fits, assigned, fun same => ?_⟩
  have verdicts_eq : stages.map Stage.direct = stages.map Stage.first := by
    have h := judgedDirect.judge_eq
    rw [judge_congr same, judged.judge_eq] at h
    simpa using (congrArg Prod.snd h).symm
  rw [verdicts_eq] at assigned
  have none_given : ((stages.map Stage.second).filterMap Verdict.granted?).length = 0 := by omega
  exact ⟨changes_second fits (List.length_eq_zero_iff.mp none_given), none_given⟩

/-- Where a registry has learnt names since an earlier pass, and gives no uid to two names, assigning
again leaves what assigning with it at once leaves, and reports the same records that need a
decision. With the registry of the earlier pass there is nothing left to assign. -/
theorem assign_assign
    (learns : ∀ name uid, first.lookup name = some uid → second.lookup name = some uid)
    (apart : (∀ name, second.lookup name = first.lookup name) ∨ second.Injective)
    {catalog : Catalog} (valid : catalog.ValidUids) (label document : String) :
    ∃ staged report direct : AssignReport,
      (first.assign label catalog).answer = .ok staged ∧
      (second.assign document (first.assign label catalog).catalog).answer = .ok report ∧
      (second.assign document catalog).answer = .ok direct ∧
      (second.assign document (first.assign label catalog).catalog).catalog =
        (second.assign document catalog).catalog ∧
      report.conflicts = direct.conflicts ∧ report.refused = direct.refused ∧
      report.unresolved = direct.unresolved ∧ report.skipped = direct.skipped ∧
      staged.assigned + report.assigned = direct.assigned ∧
      ((∀ name, second.lookup name = first.lookup name) →
        report.changed = false ∧ report.assigned = 0) := by
  have extends_ : second.Extends first :=
    apart.elim extends_of_lookup_eq fun injective => extends_of_injective injective learns
  exact extends_.assign valid label document

def chessAndTwoGos : Catalog :=
  .new ⟨2024, 1, 0⟩ [⟨[("name", .str "Chess")]⟩, ⟨[("name", .str "Go"), ("uid", .null)]⟩,
    ⟨[("name", .str "Go")]⟩]

/-- First only Go is known, later Chess is known too. One of the two records of the name Go stays
without a uid. -/
theorem assign_assign_chessAndTwoGos :
    let first : Registry := ⟨[("Go", ⟨7, by decide⟩)]⟩
    let second : Registry := first.bind "Chess" ⟨8, by decide⟩
    let staged := first.assign "old.json" chessAndTwoGos
    let later := second.assign "old.json" staged.catalog
    let direct := second.assign "old.json" chessAndTwoGos
    (∀ name uid, first.lookup name = some uid → second.lookup name = some uid) ∧
      second.Injective ∧ chessAndTwoGos.ValidUids ∧
      later.catalog = direct.catalog ∧
      staged.answer.map (·.assigned) = .ok 1 ∧ later.answer.map (·.assigned) = .ok 1 ∧
      direct.answer.map (·.assigned) = .ok 2 ∧
      later.answer.map (·.refused) = .ok [⟨"Go", "old.json", ⟨7, by decide⟩⟩] := by
  intro first second staged later direct
  have learns : ∀ name uid, first.lookup name = some uid → second.lookup name = some uid := by
    intro name uid h
    simp only [lookup] at h
    simp [second, bind, lookup, List.lookup_append, h]
  have injective : second.Injective := injective_of_nodup (by decide)
  have valid : chessAndTwoGos.ValidUids :=
    List.forall_mem_cons.mpr ⟨⟨_, rfl⟩, List.forall_mem_cons.mpr ⟨⟨_, rfl⟩,
      List.forall_mem_singleton.mpr ⟨_, rfl⟩⟩⟩
  obtain ⟨_, _, _, -, -, -, same, -⟩ :=
    assign_assign learns (.inr injective) valid "old.json" "old.json"
  exact ⟨learns, injective, valid, same, by rfl, by rfl, by rfl, by rfl⟩

end Registry

end GameCatalog
