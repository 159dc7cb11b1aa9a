import GameCatalog.Settings.Yaml.Cursor

/-!
# Block scalars of YAML

The lines under a bar or an angle bracket, from a column on. A bar keeps their ends, and an angle
bracket folds them, save around lines that start with a blank. A sign in the header tells what
becomes of the line ends at the end.
-/

namespace GameCatalog.Yaml.Block

open Text

inductive Chomping where
  | strip
  | clip
  | keep
deriving DecidableEq

/-- `column` counts from the column of the lines around; without it the first line of the text
decides. -/
structure Header where
  chomping : Chomping
  column : Option Nat

def chomping? (c : Char) : Option Chomping :=
  if c = '+' then some .keep else if c = '-' then some .strip else none

/-- The count of columns in a digit, which is not zero; without a digit there is none. -/
def columns (text : List Char) : Option (Option Nat × List Char) :=
  match text with
  | [] => some (none, [])
  | c :: rest =>
      if c = '0' then none
      else if c.isDigit then some (some (c.toNat - '0'.toNat), rest)
      else some (none, text)

def sign (text : List Char) : Option Chomping × List Char :=
  match text with
  | [] => (none, [])
  | c :: rest =>
      match chomping? c with
      | some chomping => (some chomping, rest)
      | none => (none, text)

def header : Parser Header := fun text => do
  let (before, text) := sign text
  let (column, text) ← columns text
  let (after, text) := if before.isSome ∨ column.isNone then (none, text) else sign text
  some (⟨(before.or after).getD .clip, column⟩, text)

def skipIndent (column : Nat) : Nat → Nat → Cursor → Nat × Cursor
  | 0, lines, c => (lines, c)
  | fuel + 1, lines, c =>
      let blanks := (c.text.takeWhile (· = ' ')).length
      let c := c.skipBlanks (min blanks (column - c.column))
      if c.text.head?.any isLineEnd then skipIndent column fuel (lines + 1) c.skipLine
      else (lines, c)

/-- Steps over blank lines and the indentation of the first other line. The answer has the number of
the lines and the greatest column that a line starts at. -/
def skipFirstIndent : Nat → Nat → Nat → Cursor → Nat × Nat × Cursor
  | 0, lines, widest, c => (lines, widest, c)
  | fuel + 1, lines, widest, c =>
      let c := c.skipBlanks (c.text.takeWhile (· = ' ')).length
      let widest := max widest c.column
      if c.text.head?.any isLineEnd then skipFirstIndent fuel (lines + 1) widest c.skipLine
      else (lines, widest, c)

/-- What has been read of the lines: their text, the last character first, whether a line end comes
before the next line, the number of blank lines before it, and whether the last line starts with a
blank. -/
structure Lines where
  held : List Char
  lineEnd : Bool
  blankLines : Nat
  indented : Bool

namespace Lines

def lineEndText (lines : Lines) : List Char := if lines.lineEnd then ['\n'] else []

def between (literal indented : Bool) (lines : Lines) : List Char :=
  let blank := List.replicate lines.blankLines '\n'
  if !literal ∧ lines.lineEnd ∧ !lines.indented ∧ !indented then
    if blank.isEmpty then [' '] else blank
  else lines.lineEndText ++ blank

end Lines

def lines (literal : Bool) (column : Nat) : Nat → Lines → Cursor → Lines × Cursor
  | 0, lines, c => (lines, c)
  | fuel + 1, held, c =>
      if c.column ≠ column ∨ c.text.isEmpty ∨ c.startsDocumentMark then (held, c)
      else
        let indented := c.text.head?.any isBlank
        let line := c.text.takeWhile fun d => !isLineEnd d
        let text := line.reverse ++ ((held.between literal indented).reverse ++ held.held)
        let c := c.skipBlanks line.length
        if c.text.isEmpty then (⟨text, false, 0, indented⟩, c)
        else
          let (blankLines, c) := skipIndent column c.text.length 0 c.skipLine
          lines literal column fuel ⟨text, true, blankLines, indented⟩ c

def ending (chomping : Chomping) (column : Nat) (lines : Lines) (c : Cursor) : List Char :=
  let last := if c.text.isEmpty ∧ max column 1 ≤ c.column then ['\n'] else []
  match chomping with
  | .strip => []
  | .clip => lines.lineEndText ++ last
  | .keep => lines.lineEndText ++ last ++ List.replicate lines.blankLines '\n'

def emptyText (chomping : Chomping) (sameLine : Bool) (lineEnd : Bool) (blankLines : Nat) :
    List Char :=
  let first := if lineEnd then ['\n'] else []
  if sameLine then []
  else match chomping with
    | .strip => []
    | .clip => first
    | .keep => if blankLines = 0 then first else List.replicate blankLines '\n'

def read? (literal : Bool) (indent : Int) (c : Cursor) : Option (String × Cursor) := do
  let (header, next) ← c.read? header
  let (_, next) ← next.skipInLine? true
  if !endsLine next.text then none
  else
    let hasLine := !next.text.isEmpty
    let next := next.skipLine
    if next.text.head? = some '\t' then none
    else
      let fuel := next.text.length
      let (blankLines, column, next) := match header.column with
        | some count =>
            let column := (max indent 0 + count).toNat
            let (blankLines, next) := skipIndent column fuel 0 next
            (blankLines, column, next)
        | none =>
            let (blankLines, widest, next) := skipFirstIndent fuel 0 0 next
            (blankLines, max widest (indent + 1).toNat, next)
      if next.text.isEmpty then
        let text := emptyText header.chomping (next.line == c.line) hasLine blankLines
        some (String.ofList text, next)
      else if next.column < column ∧ indent < next.column then none
      else
        let (held, next) := lines literal column fuel ⟨[], false, blankLines, false⟩ next
        some (String.ofList (held.held.reverse ++ ending header.chomping column held next), next)

example : (read? false 0 (.start "\n  a\n  b\n\n   c\n".toList)).map (·.1)
    = some "a b\n\n c\n" := by decide +kernel

end GameCatalog.Yaml.Block
