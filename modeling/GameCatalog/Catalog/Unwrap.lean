import GameCatalog.Catalog.Basic

/-!
# Unwrapping one-element arrays

Old snapshots hold some texts as arrays of one string. Unwrapping a field replaces an array of
exactly one element by that element; each mention of the field takes off one layer.
-/

namespace GameCatalog

open Json

def defaultUnwrapFields : List String := ["gameName", "gameDetails"]

namespace Json.Value

def only? : Value → Option Value
  | .arr [item] => some item
  | _ => none

end Json.Value

namespace Record

def unwrap (record : Record) (field : String) : Record × Nat :=
  match (record.get? field).bind Value.only? with
  | some item => (record.set field item, 1)
  | none => (record, 0)

def unwrapAll (record : Record) : List String → Record × Nat
  | [] => (record, 0)
  | field :: rest =>
      let (record, first) := record.unwrap field
      let (record, others) := record.unwrapAll rest
      (record, first + others)

end Record

namespace Catalog

def unwrap (catalog : Catalog) (fields : List String) : Catalog × Nat :=
  let results := catalog.games.map fun record => record.unwrapAll fields
  ({ catalog with games := results.map (·.1) }, (results.map (·.2)).foldr (· + ·) 0)

end Catalog

end GameCatalog
