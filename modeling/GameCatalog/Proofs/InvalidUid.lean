import GameCatalog.Proofs.Record

/-!
# Invalid uids

A record whose `uid` field holds anything but null or an integer of 64 bits with a sign is at fault,
and so is a list of records in which there is one. The fault that is reported names the record and
quotes the value.
-/

namespace GameCatalog

open Json

theorem Uid.ofValue?_eq_some_iff {value : Value} {uid : Uid} :
    ofValue? value = some uid ↔ value = .num uid.toNumber := by
  constructor
  · intro h
    unfold ofValue? ofInt? at h
    split at h
    · split at h
      · cases h
        rfl
      · cases h
    · cases h
  · rintro rfl
    exact ofValue?_toNumber uid

namespace Record

theorem get?_of_uid_resolved {record : Record} {uid : Uid}
    (h : record.uid = .ok (.resolved uid)) : record.get? "uid" = some (.num uid.toNumber) := by
  rw [uid_eq_resolved_iff, resolved?_eq_bind] at h
  obtain ⟨value, held, read⟩ := Option.bind_eq_some_iff.mp h
  rw [held, Uid.ofValue?_eq_some_iff.mp read]

variable {record : Record} {value : Value} {fault : RecordFault}

/-- The `uid` field of the record holds a value that is neither null nor the number of a uid. -/
structure HoldsInvalid (record : Record) (value : Value) : Prop where
  held : record.get? "uid" = some value
  not_null : value ≠ .null
  not_uid : ∀ uid : Uid, value ≠ .num uid.toNumber

/-- The fault of a record that holds such a value. -/
def invalidUid (record : Record) (value : Value) : RecordFault :=
  .invalidUid (record.name?.getD unnamed) value

theorem uid_eq_error_iff :
    record.uid = .error fault ↔
      ∃ value, record.HoldsInvalid value ∧ fault = record.invalidUid value := by
  unfold Record.uid
  constructor
  · intro h
    split at h
    next => cases h
    next => cases h
    next value not_null held =>
      split at h
      next => cases h
      next none_read =>
        refine ⟨value, ⟨held, not_null, fun uid e => ?_⟩, (Except.error.inj h).symm⟩
        rw [Uid.ofValue?_eq_some_iff.mpr e] at none_read
        cases none_read
  · rintro ⟨value, ⟨held, not_null, not_uid⟩, rfl⟩
    have none_read : Uid.ofValue? value = none :=
      Option.eq_none_iff_forall_ne_some.mpr fun uid h => not_uid uid (Uid.ofValue?_eq_some_iff.mp h)
    rw [held]
    cases value with
    | null => exact absurd rfl not_null
    | _ => simp [none_read, invalidUid]

theorem exists_uid_iff :
    (∃ field, record.uid = .ok field) ↔ ∀ value, ¬record.HoldsInvalid value := by
  constructor
  · rintro ⟨field, state⟩ value invalid
    rw [uid_eq_error_iff.mpr ⟨value, invalid, rfl⟩] at state
    cases state
  · intro valid
    cases state : record.uid with
    | ok field => exact ⟨field, rfl⟩
    | error fault =>
        obtain ⟨value, invalid, -⟩ := uid_eq_error_iff.mp state
        exact absurd invalid (valid value)

def LacksUid (record : Record) : Prop :=
  record.get? "uid" = none ∨ record.get? "uid" = some .null

theorem lacksUid_iff :
    record.LacksUid ↔ ∃ field, record.uid = .ok field ∧ field.resolved? = none := by
  constructor
  · rintro (missing | null)
    · exact ⟨.absent, by rw [Record.uid, missing], rfl⟩
    · exact ⟨.unresolved, by rw [Record.uid, null], rfl⟩
  · rintro ⟨field, state, unkeyed⟩
    cases field with
    | absent => exact .inl (get?_of_uid_absent state)
    | unresolved => exact .inr (get?_of_uid_unresolved state)
    | resolved uid => cases unkeyed

/-- The fault of the first of the records that holds an invalid uid, be it named or not. -/
def FirstInvalid (records : List Record) (fault : RecordFault) : Prop :=
  ∃ before record after value, records = before ++ record :: after ∧
    (∀ other ∈ before, ∀ found, ¬other.HoldsInvalid found) ∧
    record.HoldsInvalid value ∧ fault = record.invalidUid value

theorem firstInvalid_cons_iff {rest : List Record} :
    FirstInvalid (record :: rest) fault ↔
      record.uid = .error fault ∨
        (∃ field, record.uid = .ok field) ∧ FirstInvalid rest fault := by
  constructor
  · rintro ⟨before, found, after, value, records_eq, valid, invalid, rfl⟩
    cases before with
    | nil =>
        obtain ⟨rfl, rfl⟩ := List.cons.inj records_eq
        exact .inl (uid_eq_error_iff.mpr ⟨value, invalid, rfl⟩)
    | cons first others =>
        obtain ⟨rfl, rfl⟩ := List.cons.inj records_eq
        obtain ⟨valid_first, valid_others⟩ := List.forall_mem_cons.mp valid
        exact .inr ⟨exists_uid_iff.mpr valid_first,
          others, found, after, value, rfl, valid_others, invalid, rfl⟩
  · rintro (state | ⟨valid_first, before, found, after, value, rfl, valid, invalid, rfl⟩)
    · obtain ⟨value, invalid, rfl⟩ := uid_eq_error_iff.mp state
      exact ⟨[], record, rest, value, rfl, by simp, invalid, rfl⟩
    · exact ⟨record :: before, found, after, value, rfl,
        List.forall_mem_cons.mpr ⟨exists_uid_iff.mp valid_first, valid⟩, invalid, rfl⟩

theorem exists_firstInvalid_iff {records : List Record} :
    (∃ fault, FirstInvalid records fault) ↔
      ∃ record ∈ records, ∃ value, record.HoldsInvalid value := by
  constructor
  · rintro ⟨fault, before, record, after, value, rfl, -, invalid, -⟩
    exact ⟨record, List.mem_append_right _ List.mem_cons_self, value, invalid⟩
  · rintro ⟨record, hm, value, invalid⟩
    induction records with
    | nil => cases hm
    | cons first rest ih =>
        cases state : first.uid with
        | error fault => exact ⟨fault, firstInvalid_cons_iff.mpr (.inl state)⟩
        | ok field =>
            rcases List.mem_cons.mp hm with rfl | hm
            · exact absurd invalid (exists_uid_iff.mp ⟨field, state⟩ value)
            · obtain ⟨fault, later⟩ := ih hm
              exact ⟨fault, firstInvalid_cons_iff.mpr (.inr ⟨⟨field, state⟩, later⟩)⟩

end Record

end GameCatalog
