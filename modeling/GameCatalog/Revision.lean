import GameCatalog.Catalog.UidTable

/-!
# Revisions

A revision is the difference of two catalogs, matched by uid alone: the records only the new one
has, those only the old one has, and those of both whose fields differ. All lists ascend by uid.
-/

namespace GameCatalog

open Json

/-- A difference of one field. A change between two string names is a renaming. -/
inductive Change where
  | added (field : String)
  | removed (field : String)
  | changed (field : String)
  | renamed (old new : String)
deriving DecidableEq

def Change.ofValues (field : String) : Value → Value → Change
  | .str old, .str new => if field = "name" then .renamed old new else .changed field
  | _, _ => .changed field

namespace Record

def changeOf? (old : Record) (field : String) (value : Value) : Option Change :=
  match old.get? field with
  | none => some (.added field)
  | some held => if held.same value then none else some (.ofValues field held value)

/-- The differences of two records: those of the new fields in their order, then the fields that are
gone in theirs. -/
def changes (old new : Record) : List Change :=
  (new.fields.filterMap fun (field, value) => old.changeOf? field value) ++
    (old.fields.names.filter fun field => (new.get? field).isNone).map .removed

end Record

/-- A record of both catalogs whose fields differ. -/
structure Update where
  uid : Uid
  old : Record
  new : Record
  changes : List Change

structure Revision where
  added : UidTable
  removed : UidTable
  updated : List Update

namespace Revision

def isEmpty (revision : Revision) : Bool :=
  revision.added.isEmpty && revision.removed.isEmpty && revision.updated.isEmpty

def update? (old : UidTable) (entry : Uid × Record) : Option Update :=
  match old.find? entry.1 with
  | none => none
  | some held =>
      let changes := held.changes entry.2
      if changes.isEmpty then none else some ⟨entry.1, held, entry.2, changes⟩

def missingFrom (other table : UidTable) : UidTable :=
  table.filter fun entry => (other.find? entry.1).isNone

def ofTables (old new : UidTable) : Revision where
  added := missingFrom old new
  removed := missingFrom new old
  updated := new.filterMap (update? old)

/-- The revision from one catalog to another, in both of which every record needs a uid of its
own. -/
def between (old new : Catalog) : Except RecordFault Revision := do
  let old ← old.uidTable .every
  let new ← new.uidTable .every
  .ok (ofTables old new)

end Revision

end GameCatalog
