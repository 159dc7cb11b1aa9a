/-!
# Version stamps

The stamp of a catalog: three numbers of 32 bits, shown with points between them.
-/

namespace GameCatalog

structure Version where
  year : UInt32
  major : UInt32
  minor : UInt32
deriving DecidableEq, Repr

namespace Version

instance : ToString Version := ⟨fun v => s!"{v.year}.{v.major}.{v.minor}"⟩

def parts (version : Version) : List (String × UInt32) :=
  [("year", version.year), ("major", version.major), ("minor", version.minor)]

end Version

end GameCatalog
