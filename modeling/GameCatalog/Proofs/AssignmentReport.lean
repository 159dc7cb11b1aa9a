import GameCatalog.Proofs.Decisions
import GameCatalog.Proofs.Json.Distinct

/-!
# What an assignment reports

The report of an assignment can be told from the catalog before and after it. It says whether the
catalog changed and how many records came to have a uid, counts every record under one heading, and
lists in order the records whose uid contradicts the registry, those that are bound to a uid but end
without one, and the names that are not bound.
-/

namespace GameCatalog

open Json

namespace Record

variable {record : Record}

/-- A record with a uid other than the one that its name is bound to. -/
def conflict? (record : Record) (bound : String → Option Uid) (document : String) :
    Option Conflict :=
  match record.usableName?, record.resolved? with
  | some name, some existing => (bound name).bind fun authoritative =>
      if authoritative = existing then none else some ⟨name, document, existing, authoritative⟩
  | _, _ => none

def refusal? (record : Record) (bound : String → Option Uid) (document : String) :
    Option RefusedClaim :=
  match record.usableName?, record.resolved? with
  | some name, none => (bound name).map fun uid => ⟨name, document, uid⟩
  | _, _ => none

def unboundName? (record : Record) (bound : String → Option Uid) : Option String :=
  match record.usableName?, record.resolved? with
  | some name, none => if (bound name).isNone then some name else none
  | _, _ => none

/-! ## New marks and new uids -/

theorem same_fields {other : Record} (h : record.same other = true) :
    record.fields.length = other.fields.length ∧
      ∀ field value, record.get? field = some value →
        ∃ held, other.get? field = some held ∧ value.same held = true := by
  rw [same, Value.same, Bool.and_eq_true, Value.sameMembers_iff, beq_iff_eq] at h
  exact ⟨h.1, fun field value found => h.2 _ (Members.mem_of_get? found)⟩

theorem same_setUid {field : UidField} (state : record.uid = .ok field) {uid : Option Uid}
    (h : field = .absent ∨ field = .unresolved ∧ uid.isSome) :
    record.same (record.setUid uid) = false := by
  rw [Bool.eq_false_iff]
  intro same
  obtain ⟨length_eq, values⟩ := same_fields same
  rcases h with rfl | ⟨rfl, given⟩
  · have missing := Members.get?_eq_none_iff.mp (get?_of_uid_absent state)
    simp only [setUid, set, Members.set_of_not_mem missing, List.length_append,
      List.length_singleton] at length_eq
    omega
  · obtain ⟨found, rfl⟩ := Option.isSome_iff_exists.mp given
    obtain ⟨held, stored, equal⟩ := values _ _ (get?_of_uid_unresolved state)
    rw [setUid, get?_set_self, Option.some.injEq] at stored
    subst stored
    cases equal

theorem setUid_ne {field : UidField} (state : record.uid = .ok field) {uid : Option Uid}
    (h : field = .absent ∨ field = .unresolved ∧ uid.isSome) : record.setUid uid ≠ record := by
  intro unchanged
  rw [← unchanged] at state
  cases uid with
  | none =>
      rw [uid_setUid_none] at state
      rcases h with rfl | ⟨-, given⟩
      · cases state
      · cases given
  | some uid =>
      rw [uid_setUid_some] at state
      rcases h with rfl | ⟨rfl, -⟩ <;> cases state

end Record

/-! ## One verdict -/

namespace Judged

variable {registry : Registry} {held : List Uid} {record : Record} {verdict : Verdict}

theorem setUid_of_changes (h : Judged registry held record verdict)
    (changes : verdict.changes = true) :
    ∃ field uid, record.uid = .ok field ∧ verdict.apply record = record.setUid uid ∧
      (field = .absent ∨ field = .unresolved ∧ uid.isSome) := by
  cases h with
  | unnamed | kept | contradicted => cases changes
  | @granted name uid field named state unkeyed =>
      refine ⟨field, some uid, state, rfl, ?_⟩
      cases field with
      | absent => exact .inl rfl
      | unresolved => exact .inr ⟨rfl, rfl⟩
      | resolved uid => cases unkeyed
  | @refused name uid field named state unkeyed | @unknown name field named state unkeyed =>
      cases field with
      | absent => exact ⟨.absent, none, state, rfl, .inl rfl⟩
      | _ => cases changes

theorem conflict?_eq (h : Judged registry held record verdict) (document : String) :
    verdict.conflict? document = record.conflict? registry.lookup document := by
  unfold Record.conflict?
  cases h with
  | unnamed named => simp [named, Verdict.conflict?]
  | @kept name uid named state agrees =>
      have resolved_eq := Record.resolved?_of_uid state
      cases bound : registry.lookup name with
      | none => simp [named, resolved_eq, UidField.resolved?, bound, Verdict.conflict?]
      | some found =>
          simp [named, resolved_eq, UidField.resolved?, bound, agrees found bound,
            Verdict.conflict?]
  | contradicted named state bound differs =>
      simp [named, Record.resolved?_of_uid state, UidField.resolved?, bound, differs,
        Verdict.conflict?]
  | granted named state unkeyed | refused named state unkeyed | unknown named state unkeyed =>
      simp [named, Record.resolved?_of_uid state, unkeyed, Verdict.conflict?]

theorem refused?_eq (h : Judged registry held record verdict) (document : String) :
    verdict.refused? document =
      (verdict.apply record).refusal? registry.lookup document := by
  unfold Record.refusal?
  rw [Verdict.usableName?_apply, h.resolved?_apply]
  cases h with
  | unnamed named => simp [named, Verdict.refused?]
  | kept named state | contradicted named state =>
      simp [named, Record.resolved?_of_uid state, UidField.resolved?, Verdict.refused?]
  | granted named state unkeyed =>
      simp [named, Record.resolved?_of_uid state, unkeyed, Verdict.granted?, Verdict.refused?]
  | refused named state unkeyed bound | unknown named state unkeyed bound =>
      simp [named, Record.resolved?_of_uid state, unkeyed, bound, Verdict.granted?,
        Verdict.refused?]

theorem refused_name (h : Judged registry held record verdict) (document : String) :
    (verdict.refused? document).map (·.name) =
      verdict.unresolved?.filter fun name => (registry.lookup name).isSome := by
  cases h with
  | refused named state unkeyed bound | unknown named state unkeyed bound =>
      simp [Verdict.refused?, Verdict.unresolved?, Option.filter, bound]
  | _ => rfl

theorem unbound_name (h : Judged registry held record verdict) :
    (verdict.unresolved?.filter fun name => (registry.lookup name).isNone) =
      record.unboundName? registry.lookup := by
  unfold Record.unboundName?
  cases h with
  | unnamed named => simp [named, Verdict.unresolved?]
  | kept named state | contradicted named state =>
      simp [named, Record.resolved?_of_uid state, UidField.resolved?, Verdict.unresolved?]
  | granted named state unkeyed bound =>
      simp [named, Record.resolved?_of_uid state, unkeyed, bound, Verdict.unresolved?]
  | refused named state unkeyed bound | unknown named state unkeyed bound =>
      simp [named, Record.resolved?_of_uid state, unkeyed, bound, Verdict.unresolved?,
        Option.filter]

theorem one_heading (h : Judged registry held record verdict) :
    (if verdict = .unnamed then 1 else 0) +
      (if (record.usableName?.isSome && record.resolved?.isSome) = true then 1 else 0) +
      (if verdict.granted?.isSome = true then 1 else 0) +
      (if verdict.unresolved?.isSome = true then 1 else 0) = 1 := by
  cases h with
  | unnamed named => simp [named, Verdict.granted?, Verdict.unresolved?]
  | kept named state | contradicted named state =>
      simp [named, Record.resolved?_of_uid state, UidField.resolved?, Verdict.granted?,
        Verdict.unresolved?]
  | granted named state unkeyed | refused named state unkeyed | unknown named state unkeyed =>
      simp [Record.resolved?_of_uid state, unkeyed, Verdict.granted?, Verdict.unresolved?]

end Judged

/-! ## All verdicts -/

/-- Every record is passed over, has a uid already, gets one or is reported as unresolved. -/
theorem Judgement.count_verdicts {registry : Registry} {held : List Uid} {records : List Record}
    {verdicts : List Verdict} (h : Judgement registry held records verdicts) :
    verdicts.count .unnamed +
        records.countP (fun record => record.usableName?.isSome && record.resolved?.isSome) +
        (verdicts.filterMap Verdict.granted?).length +
        (verdicts.filterMap Verdict.unresolved?).length = records.length := by
  simp only [List.length_filterMap_eq_countP]
  induction h with
  | nil => rfl
  | cons first others ih =>
      have heading := first.one_heading
      simp only [List.count_cons, List.countP_cons, List.length_cons, beq_iff_eq]
      omega

namespace Registry.Decides

variable {registry : Registry} {held : List Uid} {decisions : List (Record × Verdict)}

/-- What is read off the verdicts can be read off the records, where that is so of each verdict. -/
theorem filterMap_verdicts (h : registry.Decides held decisions) {f : Verdict → Option α}
    {g : Record → Verdict → Option α}
    (same : ∀ {later record verdict}, Judged registry later record verdict →
      f verdict = g record verdict) :
    (decisions.map Prod.snd).filterMap f =
      decisions.filterMap fun decision => g decision.1 decision.2 := by
  rw [List.filterMap_map]
  refine List.filterMap_congr fun decision hm => ?_
  obtain ⟨later, judged⟩ := h.judged_of_mem hm
  exact same judged

theorem conflicts_eq (h : registry.Decides held decisions) (document : String) :
    (decisions.map Prod.snd).filterMap (Verdict.conflict? document) =
      (decisions.map Prod.fst).filterMap (·.conflict? registry.lookup document) := by
  rw [h.filterMap_verdicts fun judged => judged.conflict?_eq document, List.filterMap_map]
  rfl

theorem refused_eq (h : registry.Decides held decisions) (document : String) :
    (decisions.map Prod.snd).filterMap (Verdict.refused? document) =
      (decisions.map fun decision => decision.2.apply decision.1).filterMap
        (·.refusal? registry.lookup document) := by
  rw [h.filterMap_verdicts fun judged => judged.refused?_eq document, List.filterMap_map]
  rfl

theorem refused_names_eq (h : registry.Decides held decisions) (document : String) :
    ((decisions.map Prod.snd).filterMap (Verdict.refused? document)).map (·.name) =
      ((decisions.map Prod.snd).filterMap Verdict.unresolved?).filter
        fun name => (registry.lookup name).isSome := by
  rw [List.map_filterMap, List.filter_filterMap,
    h.filterMap_verdicts fun judged => judged.refused_name document, List.filterMap_map]
  rfl

theorem unbound_names_eq (h : registry.Decides held decisions) :
    ((decisions.map Prod.snd).filterMap Verdict.unresolved?).filter
        (fun name => (registry.lookup name).isNone) =
      (decisions.map Prod.fst).filterMap (·.unboundName? registry.lookup) := by
  rw [List.filter_filterMap, h.filterMap_verdicts fun judged => judged.unbound_name,
    List.filterMap_map]
  rfl

theorem count_resolved (h : registry.Decides held decisions) :
    (decisions.map fun decision => decision.2.apply decision.1).countP (·.resolved?.isSome) =
      (decisions.map Prod.fst).countP (·.resolved?.isSome) +
        ((decisions.map Prod.snd).filterMap Verdict.granted?).length := by
  have length_eq := h.perm_resolved.length_eq
  rwa [List.length_append, List.length_filterMap_eq_countP, List.length_filterMap_eq_countP]
    at length_eq

theorem exists_changed (h : registry.Decides held decisions)
    (changed : (decisions.map Prod.snd).any Verdict.changes = true) :
    ∃ decision ∈ decisions, decision.2.apply decision.1 ≠ decision.1 ∧
      decision.1.same (decision.2.apply decision.1) = false := by
  rw [List.any_map, List.any_eq_true] at changed
  obtain ⟨decision, hm, changes⟩ := changed
  obtain ⟨later, judged⟩ := h.judged_of_mem hm
  obtain ⟨field, uid, state, applied, new⟩ := judged.setUid_of_changes changes
  refine ⟨decision, hm, ?_, ?_⟩
  · rw [applied]
    exact Record.setUid_ne state new
  · rw [applied]
    exact Record.same_setUid state new

end Registry.Decides

/-! ## The report -/

/-- Catalogs differ where two records at one position do. -/
theorem Catalog.same_eq_false {a b : Catalog} {x y : Record} (paired : (x, y) ∈ a.games.zip b.games)
    (apart : x.same y = false) : a.same b = false := by
  rw [Bool.eq_false_iff]
  intro equal
  simp only [same, Bool.and_eq_true, List.all_eq_true] at equal
  have alike := equal.1.2 _ paired
  rw [apart] at alike
  cases alike

/-- A report that is exact about a catalog before and after an assignment by the names that are
bound. -/
structure AssignReport.IsExact (report : AssignReport) (bound : String → Option Uid)
    (document : String) (before after : Catalog) : Prop where
  changed : report.changed = true ↔ after ≠ before
  visible : report.changed = true → before.same after = false
  assigned : after.games.countP (·.resolved?.isSome) =
    before.games.countP (·.resolved?.isSome) + report.assigned
  every_record : report.skipped + before.games.countP (fun record =>
    record.usableName?.isSome && record.resolved?.isSome) + report.assigned +
      report.unresolved.length = before.games.length
  conflicts : report.conflicts = before.games.filterMap (·.conflict? bound document)
  refused : report.refused = after.games.filterMap (·.refusal? bound document)
  refused_sublist : (report.refused.map (·.name)).Sublist report.unresolved
  refused_names : report.refused.map (·.name) =
    report.unresolved.filter fun name => (bound name).isSome
  unbound_names : report.unresolved.filter (fun name => (bound name).isNone) =
    before.games.filterMap (·.unboundName? bound)

namespace Registry

variable {registry : Registry} {document : String} {catalog : Catalog} {report : AssignReport}

/-- The report of an assignment that succeeds is exact. -/
theorem assign_isExact (h : (registry.assign document catalog).answer = .ok report) :
    report.IsExact registry.lookup document catalog
      (registry.assign document catalog).catalog := by
  obtain ⟨decisions, games_eq, decided, catalog_eq, rfl⟩ := exists_decides_of_assign h
  have names_eq := decided.refused_names_eq document
  rw [catalog_eq]
  refine
    { changed := ⟨fun changed unchanged => ?_, fun differs => ?_⟩
      visible := fun changed => ?_
      assigned := games_eq ▸ decided.count_resolved
      every_record := ?_
      conflicts := games_eq ▸ decided.conflicts_eq document
      refused := decided.refused_eq document
      refused_sublist := names_eq ▸ List.filter_sublist
      refused_names := names_eq
      unbound_names := games_eq ▸ decided.unbound_names_eq }
  · obtain ⟨decision, hm, differs, -⟩ := decided.exists_changed changed
    have games_unchanged := (congrArg Catalog.games unchanged).trans games_eq.symm
    exact differs (List.map_inj_left.mp games_unchanged decision hm)
  · by_contra unchanged
    rw [← catalog_eq, catalog_assign_of_unchanged h (Bool.eq_false_iff.mpr unchanged)] at differs
    exact differs rfl
  · obtain ⟨decision, hm, -, apart⟩ := decided.exists_changed changed
    refine Catalog.same_eq_false (x := decision.1) (y := decision.2.apply decision.1) ?_ apart
    rw [← games_eq, List.zip_map']
    exact List.mem_map_of_mem hm
  · have counted := Judgement.count_verdicts decided
    rwa [games_eq] at counted

/-- Three names of one game, a record without a name, one uid that contradicts the authority, one
that does not, and a game that the authority does not have. -/
def gamesInEveryState : Catalog :=
  .new ⟨2024, 1, 0⟩ [⟨[("name", .str "Go")]⟩, ⟨[("name", .str "Weiqi"), ("uid", .null)]⟩,
    ⟨[("name", .str "Baduk")]⟩, ⟨[("rules", .arr [])]⟩,
    ⟨[("name", .str "Chess"), ("uid", .num (.int 3 (by decide)))]⟩,
    ⟨[("name", .str "Hex"), ("uid", .num (.int 10 (by decide)))]⟩, ⟨[("name", .str "Mancala")]⟩]

/-- One uid is assigned, and three names are left, two of which are bound. -/
theorem assign_isExact_gamesInEveryState :
    let registry : Registry :=
      ⟨[("Go", ⟨7, by decide⟩), ("Weiqi", ⟨7, by decide⟩), ("Baduk", ⟨7, by decide⟩),
        ("Chess", ⟨8, by decide⟩), ("Hex", ⟨10, by decide⟩)]⟩
    let report : AssignReport :=
      { changed := true
        assigned := 1
        unresolved := ["Weiqi", "Baduk", "Mancala"]
        skipped := 1
        conflicts := [⟨"Chess", "old.json", ⟨3, by decide⟩, ⟨8, by decide⟩⟩]
        refused := [⟨"Weiqi", "old.json", ⟨7, by decide⟩⟩, ⟨"Baduk", "old.json", ⟨7, by decide⟩⟩] }
    let assigned := registry.assign "old.json" gamesInEveryState
    assigned.answer = .ok report ∧
      report.IsExact registry.lookup "old.json" gamesInEveryState assigned.catalog ∧
      gamesInEveryState.same assigned.catalog = false := by
  intro registry report assigned
  have succeeds : assigned.answer = .ok report := by rfl
  have isExact := assign_isExact succeeds
  exact ⟨succeeds, isExact, isExact.visible rfl⟩

end Registry

end GameCatalog
