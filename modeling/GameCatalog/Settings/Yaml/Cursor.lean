import GameCatalog.Text.Blank
import GameCatalog.Text.Parser

/-!
# Places in YAML texts

A cursor is what is left of a text, with its place: the line, the column in it, and the number of
characters before it. The operations step over blanks, other characters and line ends.
-/

namespace GameCatalog.Yaml

open Text

def isLineEnd (c : Char) : Bool := c == '\n' || c == '\r'

def isFlowMark (c : Char) : Bool :=
  c == ',' || c == '[' || c == ']' || c == '\x7b' || c == '\x7d'

def endsLine : List Char → Bool
  | [] => true
  | c :: _ => isLineEnd c

def endsWord : List Char → Bool
  | [] => true
  | c :: _ => isBlank c || isLineEnd c

/-- `fresh` tells whether the line has held nothing but white space so far. -/
structure Cursor where
  text : List Char
  line : Nat
  column : Nat
  index : Nat
  fresh : Bool

namespace Cursor

def start (text : List Char) : Cursor := ⟨text, 0, 0, 0, true⟩

def skipBlanks (count : Nat) (c : Cursor) : Cursor :=
  { c with text := c.text.drop count, column := c.column + count, index := c.index + count }

def skip (count : Nat) (c : Cursor) : Cursor := { c.skipBlanks count with fresh := false }

def afterLine (length : Nat) (c : Cursor) : Cursor :=
  ⟨c.text.drop length, c.line + 1, 0, c.index + length, true⟩

def skipLine (c : Cursor) : Cursor :=
  match c.text with
  | '\r' :: '\n' :: _ => c.afterLine 2
  | d :: _ => if isLineEnd d then c.afterLine 1 else c
  | [] => c

def skipRest (c : Cursor) : Cursor :=
  c.skip (c.text.takeWhile fun d => !isLineEnd d).length

def read? (parser : Parser α) (c : Cursor) : Option (α × Cursor) :=
  (parser c.text).map fun (value, rest) => (value, c.skip (c.text.length - rest.length))

/-- Steps over white space on the line, and over a comment if there is white space before it. A
comment without it is malformed. Tabs count as white space only where `tabs` says so. The answer has
the white space too. -/
def skipInLine? (tabs : Bool) (c : Cursor) : Option (List Char × Cursor) :=
  let blanks := c.text.takeWhile fun d => d == ' ' || (tabs && d == '\t')
  let next := c.skipBlanks blanks.length
  match next.text with
  | '#' :: _ => if blanks.isEmpty then none else some (blanks, next.skipRest)
  | _ => some (blanks, next)

def startsMark (mark : String) (c : Cursor) : Bool := (after? mark.toList c.text).any endsWord

def startsDocumentMark (c : Cursor) : Bool :=
  c.column == 0 && (c.startsMark "---" || c.startsMark "...")

end Cursor

end GameCatalog.Yaml
