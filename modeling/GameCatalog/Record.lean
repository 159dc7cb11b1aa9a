import GameCatalog.Json.Text
import GameCatalog.Text.Quoted
import GameCatalog.Uid

/-!
# Game records

A record is an open list of fields. Two of them mean something here: `name`, the display name, and
`uid`, the stable key, which may be absent, null (looked for and not found) or a uid. Any other
value in the `uid` field is a fault. The faults of uids, found in one record or between two, are
listed here with their messages.
-/

namespace GameCatalog

open Json

inductive RecordFault where
  | missingUid (label : String)
  | sharedUid (uid : Uid) (first second : String)
  | invalidUid (name : String) (value : Value)

def RecordFault.message : RecordFault → String
  | .missingUid label => s!"record {Text.quoted label} has no uid"
  | .sharedUid uid first second =>
      s!"uid {uid} is shared by {Text.quoted first} and {Text.quoted second}"
  | .invalidUid name value =>
      s!"record {Text.quoted name} has a non-integer uid: {value.compact}"

/-- What the `uid` field of a record holds; null means that no uid was found for the record. -/
inductive UidField where
  | absent
  | unresolved
  | resolved (uid : Uid)
deriving DecidableEq

def UidField.resolved? : UidField → Option Uid
  | .resolved uid => some uid
  | _ => none

structure Record where
  fields : Members

namespace Record

def get? (record : Record) (field : String) : Option Value := record.fields.get? field

def set (record : Record) (field : String) (value : Value) : Record :=
  ⟨record.fields.set field value⟩

/-- The display name: only a string is one. -/
def name? (record : Record) : Option String :=
  match record.get? "name" with
  | some (.str name) => some name
  | _ => none

/-- The name by which a record can be found in a registry: an empty name is none. -/
def usableName? (record : Record) : Option String := record.name?.filter (· ≠ "")

def unnamed : String := "<unnamed>"

def uid (record : Record) : Except RecordFault UidField :=
  match record.get? "uid" with
  | none => .ok .absent
  | some .null => .ok .unresolved
  | some value =>
      match Uid.ofValue? value with
      | some uid => .ok (.resolved uid)
      | none => .error (.invalidUid (record.name?.getD unnamed) value)

/-- What a record is called in reports: its name, else its uid, else a placeholder. -/
def label (record : Record) : String :=
  match record.name? with
  | some name => name
  | none =>
      match record.uid with
      | .ok (.resolved uid) => s!"uid {uid}"
      | _ => unnamed

def setUid (record : Record) (uid : Option Uid) : Record :=
  record.set "uid" (match uid with
    | some uid => .num uid.toNumber
    | none => .null)

def same (a b : Record) : Bool := Value.same (.obj a.fields) (.obj b.fields)

@[simp] theorem get?_set_self (record : Record) (field : String) (value : Value) :
    (record.set field value).get? field = some value :=
  Members.get?_set_self field value record.fields

theorem get?_set_of_ne {field other : String} (h : other ≠ field) (record : Record)
    (value : Value) : (record.set field value).get? other = record.get? other :=
  Members.get?_set_of_ne h value record.fields

@[simp] theorem uid_setUid_some (record : Record) (uid : Uid) :
    (record.setUid (some uid)).uid = .ok (.resolved uid) := by
  simp [setUid, Record.uid]

@[simp] theorem uid_setUid_none (record : Record) :
    (record.setUid none).uid = .ok .unresolved := by
  simp [setUid, Record.uid]

@[simp] theorem name?_setUid (record : Record) (uid : Option Uid) :
    (record.setUid uid).name? = record.name? := by
  simp [setUid, name?, get?_set_of_ne]

end Record

end GameCatalog
