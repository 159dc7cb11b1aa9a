import GameCatalog.Proofs.Json.Members
import GameCatalog.Record

/-!
# The resolved uid of a record

What the two special fields of a record say depends on those fields alone. The resolved uid is read
off the `uid` field, so an edit of any other field keeps it, and so does one that puts the same
value there or the mark where there was nothing.
-/

namespace GameCatalog

open Json

namespace Record

theorem get?_of_name? {record : Record} {name : String} (named : record.name? = some name) :
    record.get? "name" = some (.str name) := by
  unfold name? at named
  split at named
  next found hg => rw [hg, ← Option.some.inj named]
  next => cases named

theorem name?_congr {a b : Record} (h : a.get? "name" = b.get? "name") : a.name? = b.name? := by
  rw [name?, name?, h]

theorem usableName?_of_name {record : Record} {name : String} (named : record.name? = some name)
    (nonempty : name ≠ "") : record.usableName? = some name := by
  rw [usableName?, named, Option.filter_some, if_pos (by simpa using nonempty)]

theorem name?_of_usableName? {record : Record} {name : String}
    (h : record.usableName? = some name) : record.name? = some name :=
  (Option.filter_eq_some_iff.mp h).1

/-- The uid of a record, where it has a valid one. -/
def resolved? (record : Record) : Option Uid :=
  match record.uid with
  | .ok state => state.resolved?
  | .error _ => none

theorem resolved?_of_uid {record : Record} {state : UidField} (h : record.uid = .ok state) :
    record.resolved? = state.resolved? := by
  simp [resolved?, h]

theorem resolved?_eq_bind (record : Record) :
    record.resolved? = (record.get? "uid").bind Uid.ofValue? := by
  unfold resolved? Record.uid
  cases record.get? "uid" with
  | none => rfl
  | some value =>
      cases value with
      | num n => cases h : Uid.ofValue? (.num n) <;> simp [UidField.resolved?, h]
      | _ => rfl

theorem uid_eq_resolved_iff {record : Record} {uid : Uid} :
    record.uid = .ok (.resolved uid) ↔ record.resolved? = some uid := by
  constructor
  · intro h
    rw [resolved?_of_uid h]
    rfl
  · intro h
    unfold resolved? at h
    cases hu : record.uid with
    | error fault => simp [hu] at h
    | ok state =>
        cases state with
        | resolved found =>
            simp only [hu, UidField.resolved?, Option.some.injEq] at h
            rw [h]
        | _ => simp [hu, UidField.resolved?] at h

theorem get?_of_uid_absent {record : Record} (h : record.uid = .ok .absent) :
    record.get? "uid" = none := by
  unfold Record.uid at h
  split at h
  next absent => exact absent
  next => cases h
  next => split at h <;> cases h

theorem get?_of_uid_unresolved {record : Record} (h : record.uid = .ok .unresolved) :
    record.get? "uid" = some .null := by
  unfold Record.uid at h
  split at h
  next => cases h
  next marked => exact marked
  next => split at h <;> cases h

theorem resolved?_congr {a b : Record} (h : a.get? "uid" = b.get? "uid") :
    a.resolved? = b.resolved? := by
  rw [resolved?_eq_bind, resolved?_eq_bind, h]

theorem resolved?_set_of_ne {field : String} (h : field ≠ "uid") (record : Record)
    (value : Value) : (record.set field value).resolved? = record.resolved? :=
  resolved?_congr (get?_set_of_ne h.symm record value)

theorem resolved?_set_uid (record : Record) (value : Value) :
    (record.set "uid" value).resolved? = Uid.ofValue? value := by
  simp [resolved?_eq_bind]

@[simp] theorem set_set (record : Record) (field : String) (value other : Value) :
    (record.set field value).set field other = record.set field other := by
  simp only [set, Members.set_set]

theorem set_of_get? {record : Record} {field : String} {value : Value}
    (h : record.get? field = some value) : record.set field value = record := by
  obtain ⟨fields⟩ := record
  simp only [set, Members.set_of_get? h]

/-- How a record takes a value in a field: in place of what the field held, or behind all its fields
if it had none of that name. -/
inductive Stores (field : String) (value : Value) : Record → Record → Prop where
  | inPlace {before after : Members} {held : Value} (first : field ∉ before.names) :
      Stores field value ⟨before ++ (field, held) :: after⟩ ⟨before ++ (field, value) :: after⟩
  | appended {fields : Members} (missing : field ∉ fields.names) :
      Stores field value ⟨fields⟩ ⟨fields ++ [(field, value)]⟩

theorem stores_set (field : String) (value : Value) (record : Record) :
    Stores field value record (record.set field value) := by
  obtain ⟨fields⟩ := record
  by_cases present : field ∈ fields.names
  · obtain ⟨before, held, after, fields_eq, first, set_eq⟩ := Members.set_of_mem present value
    rw [set, set_eq, fields_eq]
    exact .inPlace first
  · rw [set, Members.set_of_not_mem present]
    exact .appended present

@[simp] theorem setUid_setUid (record : Record) (uid other : Option Uid) :
    (record.setUid uid).setUid other = record.setUid other := by
  simp only [setUid, set_set]

theorem setUid_none_of_unresolved {record : Record} (h : record.uid = .ok .unresolved) :
    record.setUid none = record :=
  set_of_get? (get?_of_uid_unresolved h)

@[simp] theorem resolved?_setUid (record : Record) (uid : Option Uid) :
    (record.setUid uid).resolved? = uid := by
  cases uid with
  | none => simp [setUid, resolved?_set_uid, Uid.ofValue?]
  | some uid => simp [setUid, resolved?_set_uid]

/-- A record of a name and a uid only; a null uid where there is none. -/
def named (name : String) (uid : Option Uid) : Record := setUid ⟨[("name", .str name)]⟩ uid

/-! ## The mark -/

/-- A record with a usable name that has no uid field gets the mark behind its fields. -/
def marked (record : Record) : Record :=
  if record.usableName?.isSome && (record.get? "uid").isNone then
    ⟨record.fields ++ [("uid", .null)]⟩
  else record

theorem marked_of_unnamed {record : Record} (unnamed : record.usableName? = none) :
    record.marked = record := by
  simp [marked, unnamed]

theorem marked_of_present {record : Record} {field : UidField} (state : record.uid = .ok field)
    (present : field ≠ .absent) : record.marked = record := by
  have found : (record.get? "uid").isNone = false := by
    rw [Option.isNone_eq_false_iff, Option.isSome_iff_ne_none]
    intro missing
    rw [Record.uid, missing, Except.ok.injEq] at state
    exact present state.symm
  simp [marked, found]

theorem marked_of_absent {record : Record} {name : String}
    (named : record.usableName? = some name) (state : record.uid = .ok .absent) :
    record.marked = record.setUid none := by
  have missing := get?_of_uid_absent state
  rw [setUid, set, Members.set_of_not_mem (Members.get?_eq_none_iff.mp missing)]
  simp [marked, named, missing]

theorem marked_cases (record : Record) :
    record.marked = record ∨ record.uid = .ok .absent ∧ record.marked = record.setUid none := by
  cases named : record.usableName? with
  | none => exact .inl (marked_of_unnamed named)
  | some name =>
      cases missing : record.get? "uid" with
      | none =>
          have state : record.uid = .ok .absent := by rw [Record.uid, missing]
          exact .inr ⟨state, marked_of_absent named state⟩
      | some value => exact .inl (by simp [marked, missing])

@[simp] theorem usableName?_marked (record : Record) :
    record.marked.usableName? = record.usableName? := by
  rcases record.marked_cases with same | ⟨-, set⟩
  · rw [same]
  · rw [set, usableName?, usableName?, name?_setUid]

@[simp] theorem resolved?_marked (record : Record) :
    record.marked.resolved? = record.resolved? := by
  rcases record.marked_cases with same | ⟨state, set⟩
  · rw [same]
  · rw [set, resolved?_setUid, resolved?_of_uid state]
    rfl

end Record

end GameCatalog
