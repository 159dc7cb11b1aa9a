import GameCatalog.Record
import GameCatalog.Version

/-!
# Catalogs

One versioned snapshot of the game records, with any other top-level fields, which every operation
hands on untouched.
-/

namespace GameCatalog

open Json

structure Catalog where
  version : Version
  games : List Record
  extra : Members

namespace Catalog

def new (version : Version) (games : List Record) : Catalog := ⟨version, games, []⟩

def setUid (catalog : Catalog) (position : Nat) (uid : Option Uid) : Catalog :=
  { catalog with games := catalog.games.modify position fun record => record.setUid uid }

def same (a b : Catalog) : Bool :=
  a.version == b.version && a.games.length == b.games.length &&
    (a.games.zip b.games).all (fun (x, y) => x.same y) &&
    Value.same (.obj a.extra) (.obj b.extra)

end Catalog

end GameCatalog
