import GameCatalog.Catalog.Basic

/-!
# The text of a catalog

A catalog is written as one object: the version stamp, the records, then the further fields, each
level of nesting indented by the same number of spaces and without a line feed at the end.
-/

namespace GameCatalog

open Json

def defaultIndent : Nat := 4

def Version.text (layout : Layout) (level : Nat) (version : Version) : List Char :=
  layout.enclose level '\x7b' '\x7d'
    (version.parts.map fun (name, part) => memberText layout name (intText part.toNat))

namespace Catalog

def chars (layout : Layout) (catalog : Catalog) : List Char :=
  layout.enclose 0 '\x7b' '\x7d' <|
    memberText layout "version" (catalog.version.text layout 1) ::
    memberText layout "games" (layout.enclose 1 '[' ']'
      (catalog.games.map fun record => (Value.obj record.fields).text layout 2)) ::
    memberTexts layout 1 catalog.extra

def text (catalog : Catalog) (indent : Nat) : String :=
  String.ofList (catalog.chars (.indented indent))

end Catalog

end GameCatalog
