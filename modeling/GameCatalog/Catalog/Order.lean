import GameCatalog.Catalog.Basic

/-!
# Records in order of their names

The canonical order puts the records without a name first and the others by name, character by
character in the order of Unicode scalar values. Sorting is stable, and a catalog that is in order
already is left as it is.
-/

namespace GameCatalog

/-- No name comes before every name; names are compared character by character. -/
def nameLe : Option String → Option String → Bool
  | none, _ => true
  | some _, none => false
  | some a, some b => decide (a ≤ b)

def Record.nameLe (a b : Record) : Bool := GameCatalog.nameLe a.name? b.name?

def inNameOrder : List Record → Bool
  | first :: second :: rest => first.nameLe second && inNameOrder (second :: rest)
  | _ => true

namespace Catalog

def sortByName (catalog : Catalog) : Catalog × Bool :=
  if inNameOrder catalog.games then (catalog, false)
  else ({ catalog with games := catalog.games.mergeSort Record.nameLe }, true)

end Catalog

end GameCatalog
