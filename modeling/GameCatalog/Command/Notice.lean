import GameCatalog.Event
import GameCatalog.Files.Path
import GameCatalog.Text.Inert

/-!
# Notices

What a command tells about its progress: the events of the operations it runs, and lines of its own.
A notice shows as one line with its severity, where it comes from, its message as inert text and its
fields.
-/

namespace GameCatalog

def Event.source : Event → String
  | .carried _ _ => "playbook_core::carry"
  | _ => "playbook_core::assign"

inductive Notice where
  | event (event : Event)
  | authorityLoaded (path : Path) (names : Nat)
  | processing (path : Path)
  | nameUnknown (path : Path) (name : String)
  | uidsUpdated (path : Path) (assigned : Nat)
  | uidsUnchanged (path : Path)
  | assignmentComplete (rewritten conflicts : Nat)
  | sorted (path : Path)
  | alreadySorted (path : Path)
  | carryComplete (path : Path) (field : String) (carried unmatched : Nat)
  | unwrapComplete (path : Path) (replaced : Nat)
deriving DecidableEq

namespace Notice

def severity : Notice → Severity
  | .event found => found.severity
  | .nameUnknown _ _ => .warn
  | _ => .info

def source : Notice → String
  | .event found => found.source
  | .assignmentComplete _ _ => "playbook"
  | .sorted _ | .alreadySorted _ => "playbook::commands::sort"
  | .carryComplete _ _ _ _ => "playbook::commands::carry"
  | .unwrapComplete _ _ => "playbook::commands::flatten"
  | _ => "playbook::commands::assign"

def message : Notice → String
  | .event found => found.message
  | .authorityLoaded _ _ => "authority loaded"
  | .processing _ => "processing"
  | .nameUnknown _ _ => "no authoritative uid"
  | .uidsUpdated _ _ => "updated uids"
  | .uidsUnchanged _ => "no changes needed"
  | .assignmentComplete _ _ => "uid assignment complete"
  | .sorted _ => "sorted"
  | .alreadySorted _ => "already sorted"
  | .carryComplete _ _ _ _ => "carry-forward complete"
  | .unwrapComplete _ _ => "flatten complete"

def fields : Notice → List (String × LogField)
  | .event found => found.fields
  | .authorityLoaded path names => [("path", .plain path.display), ("names", .plain (toString names))]
  | .processing path | .uidsUnchanged path | .sorted path | .alreadySorted path =>
      [("path", .plain path.display)]
  | .nameUnknown path name => [("path", .plain path.display), ("name", .plain name)]
  | .uidsUpdated path assigned =>
      [("path", .plain path.display), ("assigned", .plain (toString assigned))]
  | .assignmentComplete rewritten conflicts =>
      [("rewritten", .plain (toString rewritten)), ("conflicts", .plain (toString conflicts))]
  | .carryComplete path field carried unmatched =>
      [("path", .plain path.display), ("field", .quoted field), ("carried", .plain (toString carried)),
        ("unmatched", .plain (toString unmatched))]
  | .unwrapComplete path replaced =>
      [("path", .plain path.display), ("replaced", .plain (toString replaced))]

def fieldText : String × LogField → String
  | (name, .plain text) => s!" {name}={text}"
  | (name, .quoted text) => s!" {name}={Text.quoted text}"

def line (notice : Notice) : String :=
  s!"{notice.severity.name} {notice.source}: {Text.inert notice.message}" ++
    String.join (notice.fields.map fieldText)

end Notice

end GameCatalog
