import GameCatalog.Settings.Merge
import GameCatalog.Settings.Ron.Number

/-!
# RON texts

A text holds one value: a word, a number, a string, a character, a list, a tuple, which counts as a
list, or a table, which is a map from texts or a structure with names. What an option holds counts
as the value itself, and an empty option and a value without contents as none. Attributes may lead
the text.
-/

namespace GameCatalog.Ron

open Text

/-! ## Values -/

def mapKey : Parser String := fun text =>
  match character text with
  | some (c, rest) => some (String.singleton c, rest)
  | none => string text

def plainWord : Parser Setting := fun text =>
  let words : List (String × Setting) :=
    [ ("true", .scalar (.switch true)), ("false", .scalar (.switch false)), ("None", .absent),
      ("inf", .scalar (.double (.infinite false))), ("NaN", .scalar (.double .nan)) ]
  words.findSome? fun (word, setting) => (wordEnd? word text).map fun rest => (setting, rest)

def plainValue : Parser Setting
  | [] => none
  | c :: rest =>
      let text := c :: rest
      if c = '"' ∨ c = 'r' then (string text).map fun (s, rest) => (.scalar (.text s), rest)
      else if c = '\'' then
        (character text).map fun (c, rest) => (.scalar (.text (String.singleton c)), rest)
      else if c = '.' then (double text).map fun (n, rest) => (.scalar n, rest)
      else if c.isDigit ∨ c = '+' ∨ c = '-' then
        (number text).map fun (n, rest) => (.scalar n, rest)
      else none

def startsMember (text : List Char) : Option Bool :=
  match name text with
  | none => some false
  | some (_, rest) => do
      let rest ← dropSpace rest
      rest.head?.map (· == ':')

def depthLimit : Nat := 128

mutual

def valueWithin : Nat → Nat → Parser Setting
  | 0, _, _ => none
  | fuel + 1, room, text =>
      match wordEnd? "Some" text, plainWord text, text with
      | some rest, _, _ => optionWithin fuel room rest
      | _, some answer, _ => some answer
      | _, _, '(' :: ')' :: rest => some (.absent, rest)
      | _, _, _ =>
          match name text with
          | some (_, rest) =>
              match dropSpace rest with
              | some ('(' :: rest) => parenthesesWithin fuel room rest
              | some rest => some (.absent, rest)
              | none => none
          | none =>
              match text, room with
              | '(' :: rest, room => parenthesesWithin fuel room rest
              | '[' :: _, 0 | '\x7b' :: _, 0 => none
              | '[' :: rest, room + 1 => itemsWithin fuel room ']' true [] rest
              | '\x7b' :: rest, room + 1 => membersWithin fuel room '\x7d' mapKey true [] rest
              | text, _ => plainValue text

def optionWithin : Nat → Nat → Parser Setting
  | fuel + 1, room + 1, text =>
      match dropSpace text with
      | some ('(' :: rest) => do
          let rest ← dropSpace rest
          let (value, rest) ← valueWithin fuel room rest
          let (_, rest) ← comma rest
          some (value, ← after? [')'] rest)
      | _ => none
  | _, _, _ => none

def parenthesesWithin : Nat → Nat → Parser Setting
  | fuel + 1, room + 1, text =>
      match dropSpace text with
      | some rest =>
          match startsMember rest with
          | some true => membersWithin fuel room ')' name true [] rest
          | some false => itemsWithin fuel room ')' true [] rest
          | none => none
      | none => none
  | _, _, _ => none

/-- Items up to the bracket `last`. Another one may follow only a comma. -/
def itemsWithin : Nat → Nat → Char → Bool → List Setting → Parser Setting
  | 0, _, _, _, _, _ => none
  | fuel + 1, room, last, afterComma, held, text =>
      match dropSpace text with
      | none | some [] => none
      | some (c :: rest) =>
          if c = last then some (.list held.reverse, rest)
          else if !afterComma then none
          else do
            let (item, rest) ← valueWithin fuel room (c :: rest)
            let (afterComma, rest) ← comma rest
            itemsWithin fuel room last afterComma (item :: held) rest

def membersWithin :
    Nat → Nat → Char → Parser String → Bool → Setting.Members → Parser Setting
  | 0, _, _, _, _, _, _ => none
  | fuel + 1, room, last, key, afterComma, held, text =>
      match dropSpace text with
      | none | some [] => none
      | some (c :: rest) =>
          if c = last then some (.table held, rest)
          else if !afterComma then none
          else do
            let (name, rest) ← key (c :: rest)
            let rest ← (dropSpace rest).bind (after? [':'])
            let rest ← dropSpace rest
            let (item, rest) ← valueWithin fuel room rest
            let (afterComma, rest) ← comma rest
            membersWithin fuel room last key afterComma (held.set name item) rest

end

/-! ## Attributes -/

/-- The extensions that an attribute may switch on; they change no value. -/
def extensions : List String :=
  ["unwrap_newtypes", "implicit_some", "unwrap_variant_newtypes"]

def afterMarks? : List String → List Char → Option (List Char)
  | [], text => some text
  | mark :: marks, text => do
      let rest ← dropSpace text
      let rest ← after? mark.toList rest
      afterMarks? marks rest

def afterExtensions? : Nat → List Char → Option (List Char)
  | 0, _ => none
  | fuel + 1, text => do
      let (extension, rest) ← name text
      if !extensions.contains extension then none
      else
        let (more, rest) ← comma rest
        match more, rest.head?.any isNamePart with
        | true, true => afterExtensions? fuel rest
        | false, true => none
        | _, false => some rest

def afterAttributes? : Nat → List Char → Option (List Char)
  | 0, text => some text
  | fuel + 1, text =>
      match dropSpace text with
      | some ('#' :: rest) => do
          let rest ← afterMarks? ["!", "[", "enable", "("] rest
          let rest ← dropSpace rest
          let rest ← afterExtensions? rest.length rest
          let rest ← afterMarks? [")", "]"] rest
          afterAttributes? fuel rest
      | answer => answer

def setting? (text : String) : Option Setting := do
  let chars ← afterAttributes? text.length text.toList
  let (setting, rest) ← valueWithin (2 * chars.length + 2) depthLimit chars
  if (← dropSpace rest).isEmpty then some setting else none

end GameCatalog.Ron
