import GameCatalog.Catalog.Basic
import GameCatalog.Registry.Report

/-!
# Events

What the operations on catalogs log, by cause. An event shows as a severity, a message and named
fields. `Edit` is the outcome of an operation that may change a catalog: the catalog as it stands
afterwards, also after a fault, the answer, and what was logged.
-/

namespace GameCatalog

inductive Severity where
  | debug
  | info
  | warn
  | error
deriving DecidableEq

def Severity.name : Severity → String
  | .debug => "DEBUG"
  | .info => "INFO"
  | .warn => "WARN"
  | .error => "ERROR"

/-- The value of a logged field: text that is quoted in a log line, or a plain word. -/
inductive LogField where
  | quoted (text : String)
  | plain (text : String)

def LogField.text : LogField → String
  | .quoted text => text
  | .plain text => text

inductive Event where
  | authorityNameless
  | authorityUidless (name : String)
  | authorityRepeats (name : String) (kept ignored : Uid)
  | conflict (conflict : Conflict)
  | refused (claim : RefusedClaim)
  | assigned (name : String) (uid : Uid)
  | carried (uid : Uid) (field : String)
deriving DecidableEq

namespace Event

def severity : Event → Severity
  | .authorityNameless | .authorityUidless _ | .assigned _ _ | .carried _ _ => .debug
  | .authorityRepeats _ _ _ => .warn
  | .conflict _ | .refused _ => .error

def message : Event → String
  | .authorityNameless => "authority record without a name skipped"
  | .authorityUidless _ => "authority record without a uid skipped"
  | .authorityRepeats _ _ _ => "duplicate name in authority"
  | .conflict found => found.text
  | .refused claim => claim.text
  | .assigned _ _ => "uid assigned"
  | .carried _ _ => "carried forward"

def fields : Event → List (String × LogField)
  | .authorityUidless name => [("name", .quoted name)]
  | .authorityRepeats name kept ignored =>
      [("name", .quoted name), ("kept", .plain (toString kept)),
        ("ignored", .plain (toString ignored))]
  | .assigned name uid => [("name", .plain name), ("uid", .plain (toString uid))]
  | .carried uid field => [("uid", .plain (toString uid)), ("field", .quoted field)]
  | _ => []

end Event

structure Edit (α : Type) where
  catalog : Catalog
  answer : Except RecordFault α
  events : List Event

def Edit.refuse (catalog : Catalog) (fault : RecordFault) : Edit α := ⟨catalog, .error fault, []⟩

end GameCatalog
