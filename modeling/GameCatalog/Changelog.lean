import GameCatalog.Revision
import GameCatalog.Text.LetterCase

/-!
# Changelogs

The text of a revision: a line with the two stamps, the labels of the records that came and went
under their headings, and each updated record with a line for every change. The heading of the
updates is always there.
-/

namespace GameCatalog

def Change.describe : Change → String
  | .added field => s!"- {Text.capitalize field} Added"
  | .removed field => s!"- {Text.capitalize field} Removed"
  | .changed field => s!"- {Text.capitalize field} Updated"
  | .renamed old new => s!"- Renamed from '{old}' to '{new}'"

namespace Changelog

def entryLines (heading : String) (table : UidTable) : List String :=
  if table.isEmpty then []
  else heading :: table.map fun (_, record) => s!"- {record.label}"

def updateLines (update : Update) : List String :=
  s!"- {update.new.label}" :: update.changes.map fun change => s!"  {change.describe}"

def lines (old new : Version) (revision : Revision) : List String :=
  s!"Version {old} -> {new}" ::
    entryLines "**Games Added**" revision.added ++
    entryLines "\n**Games Removed**" revision.removed ++
    "\n**Games Updated**" :: revision.updated.flatMap updateLines

def text (old new : Version) (revision : Revision) : String :=
  "\n".intercalate (lines old new revision)

def between (old new : Catalog) : Except RecordFault String := do
  let revision ← Revision.between old new
  .ok (text old.version new.version revision)

end Changelog

end GameCatalog
