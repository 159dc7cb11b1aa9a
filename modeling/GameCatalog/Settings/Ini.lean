import GameCatalog.Settings.Merge
import GameCatalog.Text.Blank
import GameCatalog.Text.Hex
import GameCatalog.Text.Parser

/-!
# INI texts

A text of keys and values, which belong to the section whose name came last, or to none. All values
are text. A later value of a key takes the place of an earlier one, and so does a later section of a
name. A section name ends at its bracket, a key at `=` or `:`, and a value at the end of its line
or, between quotes, at the second quote. In all of them a backslash escapes.
-/

namespace GameCatalog.Ini

open Text

/-! ## Words -/

def code? (digits : List Char) : Option Nat :=
  let digits := match digits with
    | '+' :: rest => rest
    | _ => digits
  if digits.isEmpty then none else (digits.mapM hexValue?).map numberOfHex

/-- What an escape stands for, after its backslash. A line end is dropped with the character after
it. -/
def escape : Parser (List Char)
  | [] => none
  | c :: rest =>
      if c = '0' then some (['\x00'], rest)
      else if c = 'a' then some (['\x07'], rest)
      else if c = 'b' then some (['\x08'], rest)
      else if c = 't' then some (['\t'], rest)
      else if c = 'r' then some (['\r'], rest)
      else if c = 'n' then some (['\n'], rest)
      else if c = '\n' then some ([], rest.drop 1)
      else if c = 'x' then
        match code? (rest.take 4) with
        | some code =>
            if 4 ≤ rest.length ∧ code.isValidChar then some ([Char.ofNat code], rest.drop 4)
            else none
        | none => none
      else some ([c], rest)

/-- The characters up to the first one that ends a word, which is left; `atEnd` tells whether the
end of the text ends it too. -/
def wordWithin (isEnd : Char → Bool) (atEnd : Bool) : Nat → List Char → Parser (List Char)
  | _, held, [] => if atEnd then some (held.reverse, []) else none
  | 0, _, _ :: _ => none
  | fuel + 1, held, c :: rest =>
      if isEnd c then some (held.reverse, c :: rest)
      else if c = '\\' then
        match escape rest with
        | some (chars, rest) => wordWithin isEnd atEnd fuel (chars.reverse ++ held) rest
        | none => none
      else wordWithin isEnd atEnd fuel (c :: held) rest

def word (isEnd : Char → Bool) (atEnd : Bool) : Parser (List Char) := fun text =>
  wordWithin isEnd atEnd text.length [] text

def isLineEnd (c : Char) : Bool := c == '\n' || c == '\r'

def isSeparator (c : Char) : Bool := c == '=' || c == ':'

def lineText : Parser (List Char) := word isLineEnd true

/-- A value after its separator. What follows a value between quotes belongs to it. -/
def value : Parser String := fun text => do
  let text := text.dropWhile fun c => isSpace c && !isLineEnd c
  let (quoted, rest) ← match text with
    | [] => some ([], [])
    | c :: rest =>
        if c = '"' ∨ c = '\'' then (word (· == c) false rest).map fun (chars, rest) =>
          (chars, rest.drop 1)
        else some ([], text)
  let (plain, rest) ← lineText rest
  some (String.ofList (trim (quoted ++ plain)), rest)

/-! ## Texts -/

/-- What has been read: the keys without a section and the finished sections, the name of the
section that goes on, and its keys. -/
structure State where
  finished : Setting.Members
  heading : Option String
  keys : Setting.Members

namespace State

def finish (state : State) : Setting.Members :=
  match state.heading with
  | none => state.finished
  | some name => state.finished.set name (.table state.keys)

def enter (name : String) (state : State) : State := ⟨state.finish, some name, []⟩

def add (key value : String) (state : State) : State :=
  let value := Setting.scalar (.text value)
  match state.heading with
  | none => { state with finished := state.finished.set key value }
  | some _ => { state with keys := state.keys.set key value }

end State

def dropSpace : Bool → List Char → Bool × List Char
  | lineStart, [] => (lineStart, [])
  | lineStart, c :: rest => if isSpace c then dropSpace (c == '\n') rest else (lineStart, c :: rest)

def pair : Parser (String × String) := fun text => do
  let (key, rest) ← word isSeparator false text
  let key := trim key
  if key.isEmpty then none
  else
    let (value, rest) ← value (rest.drop 1)
    some ((String.ofList key, value), rest)

def settingsFrom : Nat → Bool → State → List Char → Option Setting.Members
  | 0, _, _, _ => none
  | fuel + 1, lineStart, state, text =>
      match dropSpace lineStart text with
      | (_, []) => some state.finish
      | (lineStart, c :: rest) =>
          if c = ';' ∨ c = '#' then
            if lineStart then
              settingsFrom fuel true state ((rest.dropWhile (· ≠ '\n')).drop 1)
            else none
          else if c = '[' then
            match word (· == ']') false rest with
            | some (name, rest) =>
                settingsFrom fuel false (state.enter (String.ofList (trim name))) (rest.drop 1)
            | none => none
          else match pair (c :: rest) with
            | some ((key, value), rest) => settingsFrom fuel false (state.add key value) rest
            | none => none

def setting? (text : String) : Option Setting :=
  let chars := text.toList
  (settingsFrom (chars.length + 1) true ⟨[], none, []⟩ chars).map .table

end GameCatalog.Ini
