import GameCatalog.Proofs.InvalidUid
import GameCatalog.Proofs.Judgement

/-!
# Assignments that are refused

An assignment is refused for the first record with an invalid uid, wherever it stands, and then the
catalog is as before and nothing is logged. Once all uids have been checked no record can stop the
judging any more: whatever was written to the records behind is valid, and the records ahead are
still those that were checked.
-/

namespace GameCatalog

open Json

def Verdict.heldAfter (held : List Uid) : List Verdict → List Uid
  | [] => held
  | verdict :: rest => heldAfter (verdict.granted?.toList ++ held) rest

theorem Verdict.applyAll_append {before : List Record} {earlier : List Verdict}
    (paired : before.length = earlier.length) (rest : List Record) (later : List Verdict) :
    applyAll (before ++ rest) (earlier ++ later) =
      applyAll before earlier ++ applyAll rest later :=
  List.zipWith_append paired

/-- The verdicts on records are those on the first ones and then those on the rest, given the uids
held by then. -/
theorem Judgement.exists_append {registry : Registry} {held : List Uid}
    {before rest : List Record} {verdicts : List Verdict}
    (h : Judgement registry held (before ++ rest) verdicts) :
    ∃ earlier later, verdicts = earlier ++ later ∧ Judgement registry held before earlier ∧
      Judgement registry (Verdict.heldAfter held earlier) rest later := by
  induction before generalizing held verdicts with
  | nil => exact ⟨[], verdicts, rfl, .nil held, h⟩
  | cons record others ih =>
      cases h with
      | cons first next =>
          obtain ⟨earlier, later, rfl, judged, ahead⟩ := ih next
          exact ⟨_ :: earlier, later, rfl, .cons first judged, ahead⟩

namespace Registry

variable {registry : Registry} {held : List Uid}

/-- The judging of records has come to one of them. The records behind have their verdicts, and the
whole run is what was done so far followed by the run from here. All uids are valid at this moment,
and the record gets its verdict. -/
structure Reaches (registry : Registry) (held : List Uid) (before : List Record) (record : Record)
    (after : List Record) (verdicts : List Verdict) : Prop where
  judged : registry.judge held before = (Verdict.applyAll before verdicts, .ok verdicts)
  continued : registry.judge held (before ++ record :: after) =
    let (records, answer) := registry.judge (Verdict.heldAfter held verdicts) (record :: after)
    (Verdict.applyAll before verdicts ++ records, answer.map (verdicts ++ ·))
  valid : ∀ other ∈ Verdict.applyAll before verdicts ++ record :: after,
    ∃ field, other.uid = .ok field
  passes : ∃ verdict, registry.verdict (Verdict.heldAfter held verdicts) record = .ok verdict

/-- Among valid records the judging comes to each of them. -/
theorem exists_reaches {before after : List Record} {record : Record}
    (valid : ∀ other ∈ before ++ record :: after, ∃ field, other.uid = .ok field)
    (registry : Registry) (held : List Uid) :
    ∃ verdicts, registry.Reaches held before record after verdicts := by
  obtain ⟨whole, judgement⟩ := Judgement.exists_of_valid registry held valid
  obtain ⟨earlier, later, rfl, judged, ahead⟩ := judgement.exists_append
  obtain ⟨validBefore, validAhead⟩ := List.forall_mem_append.mp valid
  refine ⟨earlier, judged.judge_eq, ?_, ?_, ?_⟩
  · rw [judgement.judge_eq, ahead.judge_eq, Verdict.applyAll_append judged.length_eq]
    rfl
  · exact List.forall_mem_append.mpr ⟨judged.valid_applyAll validBefore, validAhead⟩
  · cases ahead with
    | cons first others => exact ⟨_, first.verdict_eq⟩

theorem heldUids_eq_error_iff {records : List Record} {fault : RecordFault} :
    heldUids records = .error fault ↔ Record.FirstInvalid records fault := by
  induction records with
  | nil => simp [heldUids, Record.FirstInvalid]
  | cons record rest ih =>
      rw [Record.firstInvalid_cons_iff, ← ih]
      cases state : record.uid with
      | error found => simp [heldUids, state]
      | ok field => cases others : heldUids rest <;> simp [heldUids, state, others]

theorem answer_assign_eq_error_iff {document : String} {catalog : Catalog} {fault : RecordFault} :
    (registry.assign document catalog).answer = .error fault ↔
      Record.FirstInvalid catalog.games fault := by
  rw [← heldUids_eq_error_iff]
  cases checked : heldUids catalog.games with
  | error found => simp [assign, checked, Edit.refuse]
  | ok held =>
      obtain ⟨verdicts, judged⟩ :=
        Judgement.exists_of_valid registry held (valid_of_heldUids checked)
      simp [assign, checked, judged.judge_eq, Except.map]

theorem assign_of_firstInvalid {catalog : Catalog} {fault : RecordFault}
    (h : Record.FirstInvalid catalog.games fault) (registry : Registry) (document : String) :
    registry.assign document catalog = .refuse catalog fault := by
  rw [assign, heldUids_eq_error_iff.mpr h]

/-- An assignment fails exactly when some record holds an invalid uid, with the fault of the first
such record, and then it leaves the catalog as it was. After the check of all uids the judging
reaches each record, with all uids still valid. -/
theorem assign_refuses_invalid (registry : Registry) (document : String) (catalog : Catalog) :
    ((∃ fault, (registry.assign document catalog).answer = .error fault) ↔
      ∃ record ∈ catalog.games, ∃ value, record.HoldsInvalid value) ∧
    (∀ fault, (registry.assign document catalog).answer = .error fault →
      Record.FirstInvalid catalog.games fault ∧
        registry.assign document catalog = .refuse catalog fault) ∧
    ∀ held, heldUids catalog.games = .ok held →
      ∀ before record after, catalog.games = before ++ record :: after →
        ∃ verdicts, registry.Reaches held before record after verdicts := by
  refine ⟨?_, fun fault failed => ?_, fun held checked before record after games_eq => ?_⟩
  · simp only [answer_assign_eq_error_iff, Record.exists_firstInvalid_iff]
  · have first := answer_assign_eq_error_iff.mp failed
    exact ⟨first, assign_of_firstInvalid first registry document⟩
  · have valid := valid_of_heldUids checked
    rw [games_eq] at valid
    exact exists_reaches valid registry held

/-- Go without a uid, a record without a name whose uid is a text, and Chess with an integer that
needs more than 64 bits. -/
def textAndLargeInteger : Catalog :=
  .new ⟨2024, 1, 0⟩ [⟨[("name", .str "Go")]⟩, ⟨[("uid", .str "eight")]⟩,
    ⟨[("name", .str "Chess"), ("uid", .num (.int 0x8000000000000000 (by decide)))]⟩]

/-- The text is reported and Go gets no uid. Without the two faults Go has its uid by the time the
judging reaches Chess. -/
theorem assign_refuses_invalid_textFirst :
    let registry : Registry := ⟨[("Go", ⟨7, by decide⟩)]⟩
    let fault : RecordFault := .invalidUid "<unnamed>" (.str "eight")
    let go : Record := ⟨[("name", .str "Go")]⟩
    let chess := Record.named "Chess" (some ⟨8, by decide⟩)
    let sound := Catalog.new ⟨2024, 1, 0⟩ [go, chess]
    registry.assign "old.json" textAndLargeInteger = .refuse textAndLargeInteger fault ∧
      Record.FirstInvalid textAndLargeInteger.games fault ∧
      (∃ record ∈ textAndLargeInteger.games, ∃ value, record.HoldsInvalid value) ∧
      heldUids sound.games = .ok [⟨8, by decide⟩] ∧
      registry.Reaches [⟨8, by decide⟩] [go] chess [] [.granted "Go" ⟨7, by decide⟩] := by
  intro registry fault go chess sound
  obtain ⟨fails, refused, -⟩ := assign_refuses_invalid registry "old.json" textAndLargeInteger
  obtain ⟨-, -, reaches⟩ := assign_refuses_invalid registry "old.json" sound
  have failed : (registry.assign "old.json" textAndLargeInteger).answer = .error fault := rfl
  have checked : heldUids sound.games = .ok [⟨8, by decide⟩] := rfl
  obtain ⟨first, unchanged⟩ := refused fault failed
  obtain ⟨verdicts, reached⟩ := reaches _ checked [go] chess [] rfl
  have judged : (registry.judge [⟨8, by decide⟩] [go]).2 = .ok [.granted "Go" ⟨7, by decide⟩] := rfl
  rw [reached.judged, Except.ok.injEq] at judged
  exact ⟨unchanged, first, fails.mp ⟨fault, failed⟩, checked, judged ▸ reached⟩

end Registry

end GameCatalog
