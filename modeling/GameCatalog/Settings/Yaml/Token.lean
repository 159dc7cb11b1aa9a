import GameCatalog.Settings.Yaml.Cursor
import GameCatalog.Text.Hex

/-!
# Tokens of YAML texts

Tokens are the marks of documents, of lists and tables in blocks of lines and between brackets, of
their items, keys and values, and scalars with what is said about them: anchors, which name a value,
aliases, which stand for a named one, and tags, which say what kind of value it is. This module
reads anchors, tags and directives.
-/

namespace GameCatalog.Yaml

open Text

/-- A tag as it is written: a handle, which a directive may stand for, and the rest. -/
structure Tag where
  handle : String
  suffix : String
deriving DecidableEq

inductive Token where
  | versionDirective
  | tagDirective (handle target : String)
  | documentStart
  | documentEnd
  | blockList
  | blockTable
  | blockEnd
  | flowList
  | flowListEnd
  | flowTable
  | flowTableEnd
  | item
  | comma
  | key
  | value
  | anchor (name : String)
  | reference (name : String)
  | tag (tag : Tag)
  | scalar (plain : Bool) (text : String)
deriving DecidableEq

/-! ## Anchors -/

def isAnchorChar (c : Char) : Bool :=
  !isLineEnd c && !isBlank c && !isFlowMark c && c != '\ufeff'

def anchorName : Parser String := fun text =>
  let name := text.takeWhile isAnchorChar
  if name.isEmpty then none else some (String.ofList name, text.drop name.length)

/-! ## Tags -/

def isWordChar (c : Char) : Bool := c.isAlphanum || c == '_' || c == '-'

def isUriChar (c : Char) : Bool := isWordChar c || "#;/?:@&=+$,.!~*'()[]%".toList.contains c

def isTagChar (c : Char) : Bool := isUriChar c && !isFlowMark c && c != '!'

def escapedByte : Parser Nat := fun text => do
  let rest ← after? ['%'] text
  hexNumber 2 rest

def escapedBytes : Nat → Nat → Parser Nat
  | 0, code, text => some (code, text)
  | count + 1, code, text => do
      let (byte, rest) ← escapedByte text
      if 0x80 ≤ byte ∧ byte < 0xc0 then escapedBytes count (code * 256 + byte) rest else none

/-- The character whose number the escaped bytes make up, side by side. The first byte tells how
many they are. -/
def escapedChar : Parser Char := fun text => do
  let (byte, rest) ← escapedByte text
  let more ← if byte < 0x80 then some 0
    else if 0xc0 ≤ byte ∧ byte < 0xe0 then some 1
    else if 0xe0 ≤ byte ∧ byte < 0xf0 then some 2
    else if 0xf0 ≤ byte ∧ byte < 0xf8 then some 3
    else none
  let (code, rest) ← escapedBytes more byte rest
  if code.isValidChar then some (Char.ofNat code, rest) else none

def uriChars (isPart : Char → Bool) : Nat → Parser (List Char)
  | 0, text => some ([], text)
  | fuel + 1, text =>
      match text with
      | [] => some ([], [])
      | c :: rest =>
          if !isPart c then some ([], text)
          else do
            let (d, rest) ← if c = '%' then escapedChar text else some (c, rest)
            let (others, rest) ← uriChars isPart fuel rest
            some (d :: others, rest)

def tagHandle : Parser (List Char) := fun text => do
  let rest ← after? ['!'] text
  let word := rest.takeWhile isWordChar
  match rest.drop word.length with
  | '!' :: rest => some ('!' :: word ++ ['!'], rest)
  | rest => some ('!' :: word, rest)

def isNamedHandle (handle : List Char) : Bool :=
  2 ≤ handle.length && handle.getLast? == some '!'

def tag : Parser Tag := fun text =>
  match text with
  | '!' :: '<' :: rest => do
      let (suffix, rest) ← uriChars isUriChar rest.length rest
      some (⟨"", String.ofList suffix⟩, ← after? ['>'] rest)
  | _ => do
      let (handle, rest) ← tagHandle text
      let (suffix, rest) ← uriChars isTagChar rest.length rest
      if isNamedHandle handle then
        if suffix.isEmpty then none
        else some (⟨String.ofList handle, String.ofList suffix⟩, rest)
      else
        let suffix := handle.drop 1 ++ suffix
        if suffix.isEmpty then some (⟨"", "!"⟩, rest)
        else some (⟨"!", String.ofList suffix⟩, rest)

/-! ## Directives -/

def versionNumber : Parser Unit := fun text =>
  let digits := text.takeWhile Char.isDigit
  if digits.isEmpty ∨ 9 < digits.length then none else some ((), text.drop digits.length)

def tagTarget : Parser String := fun text => do
  let (first, rest) ← match text with
    | '!' :: rest => some ('!', rest)
    | '%' :: _ => escapedChar text
    | c :: rest => if isTagChar c then some (c, rest) else none
    | [] => none
  let (others, rest) ← uriChars isUriChar rest.length rest
  if endsWord rest then some (String.ofList (first :: others), rest) else none

def directive : Parser Token := fun text =>
  let name := text.takeWhile isWordChar
  let rest := text.drop name.length
  if name.isEmpty ∨ !endsWord rest then none
  else if name = "YAML".toList then do
    let (_, rest) ← versionNumber (dropBlanks rest)
    let rest ← after? ['.'] rest
    let (_, rest) ← versionNumber rest
    some (.versionDirective, rest)
  else if name = "TAG".toList then do
    let (handle, rest) ← tagHandle (dropBlanks rest)
    if handle ≠ ['!'] ∧ !isNamedHandle handle then none
    else
      let (target, rest) ← tagTarget (dropBlanks rest)
      some (.tagDirective (String.ofList handle) target, rest)
  else some (.tagDirective "" "", rest.dropWhile fun c => !isLineEnd c)

end GameCatalog.Yaml
