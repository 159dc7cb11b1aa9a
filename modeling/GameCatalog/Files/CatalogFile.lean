import GameCatalog.Catalog.Reader
import GameCatalog.Files.Fault
import GameCatalog.Files.Path

/-!
# Catalog files

A catalog is read from a file as a whole. Everything that can go wrong with catalogs, in files or
in their records, is a `CatalogFault`. The siblings of a catalog file are the files next to it that
are named like a catalog.
-/

namespace GameCatalog

inductive CatalogFault where
  | missing (path : Path)
  | unreadable (path : Path) (fault : FileFault)
  | malformed (path : Path) (fault : Json.Fault)
  | record (fault : RecordFault)

namespace CatalogFault

def ofFile (path : Path) : FileFault → CatalogFault
  | .notFound => .missing path
  | fault => .unreadable path fault

def message : CatalogFault → String
  | .missing path => s!"file not found: {path}"
  | .unreadable path fault => s!"i/o error on {path}: {fault.text}"
  | .malformed path _ => s!"malformed JSON in {path}"
  | .record fault => fault.message

end CatalogFault

namespace Catalog

def ofFile (path : Path) (contents : Except FileFault String) : Except CatalogFault Catalog :=
  match contents with
  | .error fault => .error (.ofFile path fault)
  | .ok text =>
      match ofText text with
      | .error fault => .error (.malformed path fault)
      | .ok catalog => .ok catalog

end Catalog

/-! ## Siblings -/

/-- A name that is no text is none of a catalog, whatever it starts and ends with. -/
def isCatalogName (name : Name) : Bool :=
  (Text.ofUtf8? name).isSome && (Text.utf8 "living_playbook").isPrefixOf name &&
    (Text.utf8 ".json").isSuffixOf name

def isSiblingName (main : Path) (name : Name) : Bool :=
  some name ≠ main.fileName? && isCatalogName name

/-- The catalog files among the names in a directory, save the one of `main`, in ascending order of
their names. -/
def siblingPaths (main : Path) (names : List Name) : List Path :=
  ((names.filter (isSiblingName main)).mergeSort fun a b => decide (a ≤ b)).map main.directory.join

def siblings (main : Path) (listed : Except FileFault (List Name)) :
    Except CatalogFault (List Path) :=
  match listed with
  | .error fault => .error (.ofFile main.directory fault)
  | .ok names => .ok (siblingPaths main names)

end GameCatalog
