import GameCatalog.Settings.Yaml.Fold

/-!
# Plain scalars of YAML

A scalar without quotes goes on over lines that are indented, which are folded. It ends before a
comment, before a colon at the end of a word, before a mark of a document and, between brackets,
before another mark.
-/

namespace GameCatalog.Yaml.Plain

open Text

def goesOn (flow : Bool) : List Char → Bool
  | [] => false
  | c :: rest =>
      if endsWord (c :: rest) then false
      else if c = ':' then !endsWord rest && !(flow && rest.head?.any isFlowMark)
      else !(flow && isFlowMark c)

def word (flow : Bool) : List Char → List Char
  | [] => []
  | c :: rest => if goesOn flow (c :: rest) then c :: word flow rest else []

def skipEmpty? (c : Cursor) : Option Cursor :=
  match c.skipInLine? true with
  | some (_, c) => if endsLine c.text then some c else none
  | none => none

/-- The text of a scalar whose lines start from the column `indent` on, the last character first;
`gap` is the white space so far before the next word. -/
def words (flow : Bool) (indent : Int) :
    Nat → Gap → List Char → Cursor → Option (List Char × Cursor)
  | 0, _, held, c => some (held, c)
  | fuel + 1, gap, held, c =>
      if c.startsDocumentMark ∨ c.text.head? = some '#' then some (held, c)
      else if flow ∧ c.text.head? = some '-' ∧ c.text.tail.head?.any isFlowMark then none
      else
        let word := word flow c.text
        if word.isEmpty then some (held, c)
        else
          let held := word.reverse ++ ((gap.text false).reverse ++ held)
          let c := c.skip word.length
          match Gap.read? skipEmpty? indent false c.text.length .empty c with
          | none => none
          | some (gap, next) =>
              if next.index = c.index ∨ (!flow ∧ next.column < indent) then some (held, next)
              else words flow indent fuel gap held next

def read? (flow : Bool) (indent : Int) (c : Cursor) : Option (String × Cursor) :=
  if flow ∧ c.column < indent then none
  else (words flow indent (c.text.length + 1) .empty [] c).map fun (held, c) =>
    (String.ofList held.reverse, c)

example : (read? false 1 (.start "a:b c\n d # e".toList)).map (·.1) = some "a:b c d" := by
  decide +kernel

end GameCatalog.Yaml.Plain
