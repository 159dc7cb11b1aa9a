import GameCatalog.Proofs.Except
import GameCatalog.Proofs.Record
import GameCatalog.Registry.Assign

/-!
# What an assignment does to each record

`Judged` says when a record gets which verdict, the uids held by then included. From it follows
what a verdict does to the resolved uid of its record, and from that what a whole assignment does:
a resolved uid stays, and a uid is given away only where no record holds it.
-/

namespace GameCatalog

/-- What each verdict says of its record and of the uids held by then. -/
inductive Judged (registry : Registry) (held : List Uid) (record : Record) : Verdict → Prop where
  | unnamed (named : record.usableName? = none) : Judged registry held record .unnamed
  | kept {name : String} {uid : Uid} (named : record.usableName? = some name)
      (state : record.uid = .ok (.resolved uid))
      (agrees : ∀ bound, registry.lookup name = some bound → bound = uid) :
      Judged registry held record .kept
  | contradicted {name : String} {existing authoritative : Uid}
      (named : record.usableName? = some name) (state : record.uid = .ok (.resolved existing))
      (bound : registry.lookup name = some authoritative) (differs : authoritative ≠ existing) :
      Judged registry held record (.contradicted name existing authoritative)
  | granted {name : String} {uid : Uid} {field : UidField}
      (named : record.usableName? = some name) (state : record.uid = .ok field)
      (unkeyed : field.resolved? = none) (bound : registry.lookup name = some uid)
      (free : uid ∉ held) : Judged registry held record (.granted name uid)
  | refused {name : String} {uid : Uid} {field : UidField}
      (named : record.usableName? = some name) (state : record.uid = .ok field)
      (unkeyed : field.resolved? = none) (bound : registry.lookup name = some uid)
      (taken : uid ∈ held) : Judged registry held record (.refused name uid (field = .absent))
  | unknown {name : String} {field : UidField} (named : record.usableName? = some name)
      (state : record.uid = .ok field) (unkeyed : field.resolved? = none)
      (bound : registry.lookup name = none) :
      Judged registry held record (.unknown name (field = .absent))

namespace Registry

theorem verdict_of_unkeyed {record : Record} {name : String} {field : UidField}
    (named : record.usableName? = some name) (state : record.uid = .ok field)
    (unkeyed : field.resolved? = none) (registry : Registry) (held : List Uid) :
    registry.verdict held record =
      match registry.lookup name with
      | some uid =>
          if uid ∈ held then .ok (.refused name uid (field = .absent))
          else .ok (.granted name uid)
      | none => .ok (.unknown name (field = .absent)) := by
  cases field with
  | resolved uid => simp [UidField.resolved?] at unkeyed
  | absent => cases bound : registry.lookup name <;> simp [verdict, named, state, bound]
  | unresolved => cases bound : registry.lookup name <;> simp [verdict, named, state, bound]

variable {registry : Registry} {held : List Uid} {record : Record} {verdict : Verdict}
  {name : String}

theorem judged_of_resolved {existing : Uid} (named : record.usableName? = some name)
    (state : record.uid = .ok (.resolved existing))
    (h : registry.verdict held record = .ok verdict) : Judged registry held record verdict := by
  cases bound : registry.lookup name with
  | none =>
      simp only [Registry.verdict, named, state, bound, Except.ok.injEq] at h
      exact h ▸ .kept named state (by simp [bound])
  | some authoritative =>
      simp only [Registry.verdict, named, state, bound] at h
      split at h
      next agrees =>
        cases h
        exact .kept named state (by simp [bound, agrees])
      next differs =>
        cases h
        exact .contradicted named state bound differs

/-- A record without a uid gets the one that the registry binds to its name, if it is free. -/
theorem judged_of_unkeyed {field : UidField} (named : record.usableName? = some name)
    (state : record.uid = .ok field) (unkeyed : field.resolved? = none)
    (h : registry.verdict held record = .ok verdict) : Judged registry held record verdict := by
  rw [verdict_of_unkeyed named state unkeyed] at h
  cases bound : registry.lookup name with
  | none =>
      simp only [bound, Except.ok.injEq] at h
      exact h ▸ .unknown named state unkeyed bound
  | some uid =>
      simp only [bound] at h
      split at h
      next taken =>
        cases h
        exact .refused named state unkeyed bound taken
      next free =>
        cases h
        exact .granted named state unkeyed bound free

theorem judged_of_verdict (h : registry.verdict held record = .ok verdict) :
    Judged registry held record verdict := by
  cases named : record.usableName? with
  | none =>
      simp only [Registry.verdict, named, Except.ok.injEq] at h
      exact h ▸ .unnamed named
  | some name =>
      cases state : record.uid with
      | error fault => simp [Registry.verdict, named, state] at h
      | ok field =>
          cases field with
          | resolved existing => exact judged_of_resolved named state h
          | absent => exact judged_of_unkeyed named state rfl h
          | unresolved => exact judged_of_unkeyed named state rfl h

end Registry

/-- A verdict leaves its record as it is or stores a uid in it. -/
theorem Verdict.apply_cases (verdict : Verdict) (record : Record) :
    verdict.apply record = record ∨ ∃ uid, verdict.apply record = record.setUid uid := by
  cases verdict with
  | unnamed | kept | contradicted => exact .inl rfl
  | granted name uid => exact .inr ⟨some uid, rfl⟩
  | refused name uid marks =>
      cases marks with
      | false => exact .inl rfl
      | true => exact .inr ⟨none, rfl⟩
  | unknown name marks =>
      cases marks with
      | false => exact .inl rfl
      | true => exact .inr ⟨none, rfl⟩

namespace Judged

variable {registry : Registry} {held : List Uid} {record : Record} {verdict : Verdict}

/-- A verdict adds the uid it gives away to a record that has none, and leaves any other resolved
uid as it is. -/
theorem resolved?_apply (h : Judged registry held record verdict) :
    (verdict.apply record).resolved? = record.resolved?.or verdict.granted? := by
  cases h with
  | unnamed | kept | contradicted => simp [Verdict.apply, Verdict.granted?]
  | granted named state unkeyed =>
      simp [Verdict.apply, Verdict.granted?, Record.resolved?_of_uid state, unkeyed]
  | @refused name uid field named state unkeyed =>
      cases hd : decide (field = .absent) <;>
        simp [Verdict.apply, Verdict.granted?, Record.resolved?_of_uid state, unkeyed]
  | @unknown name field named state unkeyed =>
      cases hd : decide (field = .absent) <;>
        simp [Verdict.apply, Verdict.granted?, Record.resolved?_of_uid state, unkeyed]

/-- A uid goes to a record without one, and only where no record holds it. -/
theorem of_granted {uid : Uid} (h : Judged registry held record verdict)
    (granted : verdict.granted? = some uid) : record.resolved? = none ∧ uid ∉ held := by
  cases h with
  | granted named state unkeyed bound free =>
      simp only [Verdict.granted?, Option.some.injEq] at granted
      subst granted
      exact ⟨by rw [Record.resolved?_of_uid state, unkeyed], free⟩
  | _ => simp [Verdict.granted?] at granted

end Judged

namespace Registry

theorem mem_heldUids {records : List Record} {held : List Uid} (h : heldUids records = .ok held)
    {uid : Uid} : uid ∈ held ↔ ∃ record ∈ records, record.resolved? = some uid := by
  induction records generalizing held with
  | nil =>
      simp only [heldUids, Except.ok.injEq] at h
      simp [← h]
  | cons record rest ih =>
      simp only [heldUids, bind_eq_ok_iff, Except.ok.injEq] at h
      obtain ⟨state, hu, others, hrest, rfl⟩ := h
      simp [ih hrest, Record.resolved?_of_uid hu, eq_comm]

/-- What one step of judging does, the fault of a record included. -/
theorem judge_cons (registry : Registry) (held : List Uid) (record : Record)
    (rest : List Record) :
    (registry.judge held (record :: rest)).1 = record :: rest ∨
    ∃ verdict, Judged registry held record verdict ∧
      (registry.judge held (record :: rest)).1 =
        verdict.apply record :: (registry.judge (verdict.granted?.toList ++ held) rest).1 := by
  cases hv : registry.verdict held record with
  | error fault => exact .inl (by simp [judge, hv])
  | ok verdict => exact .inr ⟨verdict, judged_of_verdict hv, by simp [judge, hv]⟩

@[simp] theorem length_judge (registry : Registry) (held : List Uid) (records : List Record) :
    (registry.judge held records).1.length = records.length := by
  induction records generalizing held with
  | nil => rfl
  | cons record rest ih =>
      rcases judge_cons registry held record rest with h | ⟨verdict, -, h⟩
      · rw [h]
      · simp [h, ih]

theorem forall_judge {P : Record → Prop}
    (setUid_keeps : ∀ {record}, P record → ∀ uid, P (record.setUid uid)) {registry : Registry}
    {held : List Uid} {records : List Record} (h : ∀ record ∈ records, P record) :
    ∀ record ∈ (registry.judge held records).1, P record := by
  induction records generalizing held with
  | nil => exact h
  | cons record rest ih =>
      rcases judge_cons registry held record rest with hj | ⟨verdict, -, hj⟩
      · rw [hj]
        exact h
      · rw [hj, List.forall_mem_cons]
        rw [List.forall_mem_cons] at h
        refine ⟨?_, ih h.2⟩
        rcases verdict.apply_cases record with ha | ⟨uid, ha⟩
        · rw [ha]
          exact h.1
        · rw [ha]
          exact setUid_keeps h.1 uid

theorem resolved?_judge {registry : Registry} {held : List Uid} {records : List Record}
    {position : Nat} {before after : Record} {uid : Uid} (hb : records[position]? = some before)
    (ha : (registry.judge held records).1[position]? = some after)
    (resolved : before.resolved? = some uid) : after.resolved? = some uid := by
  induction records generalizing held position with
  | nil => simp at hb
  | cons record rest ih =>
      rcases judge_cons registry held record rest with h | ⟨verdict, judged, h⟩
      · rw [h, hb, Option.some.injEq] at ha
        rw [← ha, resolved]
      · rw [h] at ha
        cases position with
        | zero =>
            simp only [List.getElem?_cons_zero, Option.some.injEq] at hb ha
            subst hb
            rw [← ha, judged.resolved?_apply, resolved]
            rfl
        | succ position => exact ih hb ha

/-- A uid that is held stays with the records that have it, and any other uid goes to one record at
most. -/
theorem countP_judge_le {held : List Uid} {records : List Record}
    (known : ∀ record ∈ records, ∀ uid, record.resolved? = some uid → uid ∈ held)
    (registry : Registry) (uid : Uid) :
    (registry.judge held records).1.countP (·.resolved? = some uid) ≤
      if uid ∈ held then records.countP (·.resolved? = some uid) else 1 := by
  induction records generalizing held with
  | nil => simp [judge]
  | cons record rest ih =>
      have unheld : uid ∉ held → (record :: rest).countP (·.resolved? = some uid) = 0 := by
        intro hu
        rw [List.countP_eq_zero]
        intro other hm hr
        exact hu (known other hm uid (by simpa using hr))
      rcases judge_cons registry held record rest with h | ⟨verdict, judged, h⟩
      · rw [h]
        by_cases hu : uid ∈ held
        · simp [hu]
        · simp [hu, unheld hu]
      · have knownRest : ∀ other ∈ rest, ∀ found, other.resolved? = some found →
            found ∈ verdict.granted?.toList ++ held := fun other hm found hf =>
          List.mem_append_right _ (known other (List.mem_cons_of_mem _ hm) found hf)
        have later := ih knownRest
        rw [h, List.countP_cons, judged.resolved?_apply]
        cases hg : verdict.granted? with
        | none =>
            simp only [hg, Option.toList_none, List.nil_append, Option.or_none] at later ⊢
            by_cases hu : uid ∈ held
            · simp only [hu, if_true, List.countP_cons] at later ⊢
              omega
            · have none_ := unheld hu
              simp only [List.countP_cons] at none_
              simp only [hu, if_false] at later ⊢
              omega
        | some given =>
            obtain ⟨unkeyed, free⟩ := judged.of_granted hg
            simp only [hg, Option.toList_some, List.singleton_append, List.mem_cons] at later ⊢
            by_cases he : given = uid
            · subst he
              have none_ := unheld free
              simp only [List.countP_cons] at none_
              simp only [true_or, if_true] at later
              simp only [unkeyed, free, if_false, Option.none_or, decide_true, if_true]
              omega
            · have hne : uid ≠ given := fun e => he e.symm
              simp only [hne, false_or] at later
              simp only [unkeyed, List.countP_cons, Option.none_or, Option.some.injEq, he,
                decide_false, Bool.false_eq_true, if_false, reduceCtorEq]
              exact later

/-- An assignment stops before it changes anything, or judges all records. -/
theorem assign_cases (registry : Registry) (document : String) (catalog : Catalog) :
    (∃ fault, registry.assign document catalog = .refuse catalog fault) ∨
    ∃ held, heldUids catalog.games = .ok held ∧
      (registry.assign document catalog).catalog =
        { catalog with games := (registry.judge held catalog.games).1 } := by
  cases hh : heldUids catalog.games with
  | error fault => exact .inl ⟨fault, by simp [assign, hh]⟩
  | ok held => exact .inr ⟨held, rfl, by simp [assign, hh]⟩

end Registry

end GameCatalog
