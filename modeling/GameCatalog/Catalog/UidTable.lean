import GameCatalog.Catalog.Basic

/-!
# Records by uid

A table lists records by ascending uid. Building one from a catalog stops at the first record whose
uid is invalid, required and not resolved, or already in the table.
-/

namespace GameCatalog

abbrev UidTable := List (Uid × Record)

namespace UidTable

def find? (uid : Uid) : UidTable → Option Record
  | [] => none
  | (key, record) :: rest => if key = uid then some record else find? uid rest

def insert (uid : Uid) (record : Record) : UidTable → UidTable
  | [] => [(uid, record)]
  | (key, held) :: rest =>
      if uid.val < key.val then (uid, record) :: (key, held) :: rest
      else if uid = key then (uid, record) :: rest
      else (key, held) :: insert uid record rest

@[simp] theorem find?_insert_self (uid : Uid) (record : Record) (table : UidTable) :
    (table.insert uid record).find? uid = some record := by
  induction table with
  | nil => simp [insert, find?]
  | cons entry rest ih =>
      obtain ⟨key, held⟩ := entry
      by_cases hlt : uid.val < key.val
      · simp [insert, find?, hlt]
      · by_cases he : uid = key
        · simp [insert, find?, he]
        · simp [insert, find?, hlt, he, Ne.symm he, ih]

theorem find?_insert_of_ne {uid other : Uid} (h : other ≠ uid) (record : Record)
    (table : UidTable) : (table.insert uid record).find? other = table.find? other := by
  induction table with
  | nil => simp [insert, find?, h.symm]
  | cons entry rest ih =>
      obtain ⟨key, held⟩ := entry
      by_cases hlt : uid.val < key.val
      · simp [insert, find?, hlt, h.symm]
      · by_cases he : uid = key
        · subst he
          simp [insert, find?, h.symm]
        · by_cases ho : key = other
          · subst ho
            simp [insert, find?, hlt, he]
          · simp [insert, find?, hlt, he, ho, ih]

end UidTable

/-- Which records a table must hold: all of them, or those that have a resolved uid. -/
inductive Coverage where
  | every
  | resolved
deriving DecidableEq

namespace Catalog

def tabulate (coverage : Coverage) (table : UidTable) : List Record → Except RecordFault UidTable
  | [] => .ok table
  | record :: rest =>
      match record.uid with
      | .error fault => .error fault
      | .ok (.resolved uid) =>
          match table.find? uid with
          | some first => .error (.sharedUid uid first.label record.label)
          | none => tabulate coverage (table.insert uid record) rest
      | .ok _ =>
          match coverage with
          | .every => .error (.missingUid record.label)
          | .resolved => tabulate coverage table rest

def uidTable (coverage : Coverage) (catalog : Catalog) : Except RecordFault UidTable :=
  tabulate coverage [] catalog.games

end Catalog

end GameCatalog
