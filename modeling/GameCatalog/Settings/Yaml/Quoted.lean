import GameCatalog.Settings.Yaml.Fold
import GameCatalog.Text.Hex

/-!
# Quoted scalars of YAML

A scalar between quotes, whose lines are folded. Between single quotes a quote is written twice;
between double ones a backslash escapes, and before a line end it joins the lines.
-/

namespace GameCatalog.Yaml.Quoted

open Text

def letterEscape? (c : Char) : Option Char :=
  if c = '0' then some '\x00'
  else if c = 'a' then some '\x07'
  else if c = 'b' then some '\x08'
  else if c = 't' ∨ c = '\t' then some '\t'
  else if c = 'n' then some '\n'
  else if c = 'v' then some '\x0b'
  else if c = 'f' then some '\x0c'
  else if c = 'r' then some '\r'
  else if c = 'e' then some '\x1b'
  else if c = ' ' ∨ c = '"' ∨ c = '/' ∨ c = '\\' then some c
  else if c = 'N' then some '\u0085'
  else if c = '_' then some '\u00a0'
  else if c = 'L' then some '\u2028'
  else if c = 'P' then some '\u2029'
  else none

def escape : Parser Char
  | [] => none
  | c :: rest =>
      if c = 'x' then hexChar 2 rest
      else if c = 'u' then hexChar 4 rest
      else if c = 'U' then hexChar 8 rest
      else (letterEscape? c).map fun d => (d, rest)

/-- The characters up to white space or the quote, the last one first, and whether they end with an
escaped line end. `fuel` bounds the steps. -/
def run (single : Bool) : Nat → List Char → Cursor → Option (List Char × Bool × Cursor)
  | 0, held, c => some (held, false, c)
  | fuel + 1, held, c =>
      match c.text with
      | [] => some (held, false, c)
      | d :: rest =>
          if endsWord c.text then some (held, false, c)
          else if single ∧ d = '\'' then
            if rest.head? = some '\'' then run single fuel ('\'' :: held) (c.skip 2)
            else some (held, false, c)
          else if !single ∧ d = '"' then some (held, false, c)
          else if !single ∧ d = '\\' then
            if rest.head?.any isLineEnd then some (held, true, (c.skip 1).skipLine)
            else match (c.skip 1).read? escape with
              | some (e, c) => run single fuel (e :: held) c
              | none => none
          else run single fuel (d :: held) (c.skip 1)

def parts (single : Bool) (indent : Int) : Nat → List Char → Cursor → Option (List Char × Cursor)
  | 0, _, _ => none
  | fuel + 1, held, c =>
      if c.startsDocumentMark ∨ c.text.isEmpty ∨ c.column < indent then none
      else match run single c.text.length held c with
        | none => none
        | some (held, joined, c) =>
            if c.text.head? = some (if single then '\'' else '"') then some (held.reverse, c)
            else match Gap.read? (fun _ => none) indent joined c.text.length .empty c with
              | none => none
              | some (gap, c) =>
                  parts single indent fuel ((gap.text joined).reverse ++ held) c

def mayFollow (flow : Bool) (first : Nat) (c : Cursor) : Bool :=
  match c.text with
  | [] => true
  | d :: _ =>
      isLineEnd d || (flow && (d == ',' || d == ']' || d == '\x7d')) ||
        (d == ':' && (flow || c.line == first))

def read? (single flow : Bool) (indent : Int) (c : Cursor) : Option (String × Cursor) := do
  let (chars, next) ← parts single indent (c.text.length + 1) [] (c.skip 1)
  let (_, next) ← (next.skip 1).skipInLine? true
  if mayFollow flow c.line next then some (String.ofList chars, next) else none

example : (read? false false 0 (.start "\"a\\\n  b \n\n c\\x21\"".toList)).map (·.1)
    = some "ab\nc!" := by decide +kernel

end GameCatalog.Yaml.Quoted
