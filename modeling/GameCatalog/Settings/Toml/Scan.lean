import GameCatalog.Text.Blank
import GameCatalog.Text.Hex
import GameCatalog.Text.Parser

/-!
# Words of TOML

Blanks, comments, line ends, strings and keys, each a reader at the start of the characters that are
left.
-/

namespace GameCatalog.Toml

open Text

/-! ## Comments and line ends -/

def isPlain (c : Char) : Bool := c == '\t' || (0x20 ≤ c.toNat && c.toNat != 0x7f)

def dropComment : List Char → List Char
  | '#' :: rest => rest.dropWhile isPlain
  | text => text

def newline? : List Char → Option (List Char)
  | '\n' :: rest => some rest
  | '\r' :: '\n' :: rest => some rest
  | _ => none

def endLine? (text : List Char) : Option (List Char) :=
  match dropComment (dropBlanks text) with
  | [] => some []
  | rest => newline? rest

def dropLines : Nat → List Char → List Char
  | 0, text => text
  | fuel + 1, text =>
      let rest := dropComment (dropBlanks text)
      match newline? rest with
      | some rest => dropLines fuel rest
      | none => rest

def dropSpace (text : List Char) : List Char := dropLines text.length text

/-! ## Strings -/

def escape : Parser Char
  | [] => none
  | c :: rest =>
      if c = 'u' then hexChar 4 rest
      else if c = 'U' then hexChar 8 rest
      else if c = '"' ∨ c = '\\' then some (c, rest)
      else if c = 'b' then some ('\x08', rest)
      else if c = 't' then some ('\t', rest)
      else if c = 'n' then some ('\n', rest)
      else if c = 'f' then some ('\x0c', rest)
      else if c = 'r' then some ('\r', rest)
      else none

def lineString (quote : Char) (escapes : Bool) : Nat → List Char → Parser (List Char)
  | _, _, [] => none
  | 0, _, _ :: _ => none
  | fuel + 1, held, c :: rest =>
      if c = quote then some (held.reverse, rest)
      else if escapes ∧ c = '\\' then
        match escape rest with
        | some (d, rest) => lineString quote escapes fuel (d :: held) rest
        | none => none
      else if isPlain c then lineString quote escapes fuel (c :: held) rest
      else none

def dropBlankLines : List Char → List Char
  | '\r' :: '\n' :: rest => dropBlankLines rest
  | c :: rest => if isBlank c || c == '\n' then dropBlankLines rest else c :: rest
  | [] => []

def continued? (text : List Char) : Option (List Char) :=
  (newline? (dropBlanks text)).map dropBlankLines

/-- The characters of a string over several lines, up to three quotes; up to two more before the end
belong to the text. -/
def blockString (quote : Char) (escapes : Bool) : Nat → List Char → Parser (List Char)
  | _, _, [] => none
  | 0, _, _ :: _ => none
  | fuel + 1, held, c :: rest =>
      let run := ((c :: rest).takeWhile (· = quote)).length
      if 3 ≤ run then
        let extra := min (run - 3) 2
        some (held.reverse ++ List.replicate extra quote, (c :: rest).drop (extra + 3))
      else if escapes ∧ c = '\\' then
        match continued? rest with
        | some rest => blockString quote escapes fuel held rest
        | none =>
            match escape rest with
            | some (d, rest) => blockString quote escapes fuel (d :: held) rest
            | none => none
      else match newline? (c :: rest) with
        | some after => blockString quote escapes fuel ('\n' :: held) after
        | none =>
            if isPlain c then blockString quote escapes fuel (c :: held) rest else none

def stringAfter (quote : Char) : Parser String := fun text =>
  let escapes := quote = '"'
  let read : Option (List Char × List Char) := match text with
    | a :: b :: rest =>
        if a = quote ∧ b = quote then
          let body := (newline? rest).getD rest
          blockString quote escapes body.length [] body
        else lineString quote escapes text.length [] text
    | _ => lineString quote escapes text.length [] text
  read.map fun (chars, rest) => (String.ofList chars, rest)

/-! ## Keys -/

def isBareKeyChar (c : Char) : Bool := c.isAlphanum || c == '_' || c == '-'

def keyPart : Parser String
  | [] => none
  | c :: rest =>
      if c = '"' ∨ c = '\'' then
        (lineString c (c = '"') rest.length [] rest).map fun (chars, rest) =>
          (String.ofList chars, rest)
      else
        let name := (c :: rest).takeWhile isBareKeyChar
        if name.isEmpty then none
        else some (String.ofList name, (c :: rest).dropWhile isBareKeyChar)

def depthLimit : Nat := 79

def keyParts : Nat → Parser (List String)
  | 0, _ => none
  | room + 1, text => do
      let (part, rest) ← keyPart (dropBlanks text)
      match dropBlanks rest with
      | '.' :: rest =>
          let (parts, rest) ← keyParts room rest
          some (part :: parts, rest)
      | rest => some ([part], rest)

def key : Parser (List String) := keyParts depthLimit

end GameCatalog.Toml
