import GameCatalog.Settings.Yaml.Cursor

/-!
# Folded lines

White space inside a scalar shows as it is while it stays on the line. A single line end folds to a
space, and of several ones the first is dropped.
-/

namespace GameCatalog.Yaml

open Text

/-- White space between two parts of a scalar: the blanks before its first line end, the last one
first, and the number of its line ends. -/
structure Gap where
  blanks : List Char
  lineEnds : Nat

namespace Gap

def empty : Gap := ⟨[], 0⟩

/-- What white space stands for. It is `joined` when an escaped line end comes before it, which
stands for nothing and takes the place of the first line end. -/
def text (joined : Bool) (gap : Gap) : List Char :=
  if joined then List.replicate gap.lineEnds '\n'
  else match gap.lineEnds with
    | 0 => gap.blanks.reverse
    | 1 => [' ']
    | n + 2 => List.replicate (n + 1) '\n'

/-- Reads white space. Behind a line end, a tab left of the column `indent` is for `onTab` to step
over. `fuel` bounds the steps. -/
def read? (onTab : Cursor → Option Cursor) (indent : Int) (joined : Bool) :
    Nat → Gap → Cursor → Option (Gap × Cursor)
  | 0, gap, c => some (gap, c)
  | fuel + 1, gap, c =>
      match c.text with
      | [] => some (gap, c)
      | d :: _ =>
          if isLineEnd d then
            read? onTab indent joined fuel { gap with lineEnds := gap.lineEnds + 1 } c.skipLine
          else if !isBlank d then some (gap, c)
          else if joined ∨ 0 < gap.lineEnds then
            if d = '\t' ∧ c.column < indent then
              match onTab c with
              | some c => read? onTab indent joined fuel gap c
              | none => none
            else read? onTab indent joined fuel gap (c.skipBlanks 1)
          else
            read? onTab indent joined fuel { gap with blanks := d :: gap.blanks } (c.skipBlanks 1)

theorem text_single (blanks : List Char) : text false ⟨blanks, 1⟩ = [' '] := rfl

theorem text_joined (blanks : List Char) : text true ⟨blanks, 0⟩ = [] := rfl

end Gap

end GameCatalog.Yaml
