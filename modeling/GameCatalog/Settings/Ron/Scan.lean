import GameCatalog.Text.Hex

/-!
# Words of RON

White space with comments, which nest, names, strings and characters. A name may be marked as raw,
and so may a string, which then has no escapes.
-/

namespace GameCatalog.Ron

open Text

/-! ## White space -/

def isSpace (c : Char) : Bool := c == ' ' || c == '\t' || c == '\n' || c == '\r'

def afterComment? : Nat → List Char → Option (List Char)
  | _, [] => none
  | depth, '/' :: '*' :: rest => afterComment? (depth + 1) rest
  | 0, '*' :: '/' :: rest => some rest
  | depth + 1, '*' :: '/' :: rest => afterComment? depth rest
  | depth, _ :: rest => afterComment? depth rest

def dropSpaceWithin : Nat → List Char → Option (List Char)
  | 0, text => some text
  | fuel + 1, text =>
      match text.dropWhile isSpace with
      | '/' :: '/' :: rest => dropSpaceWithin fuel (rest.dropWhile (· ≠ '\n'))
      | '/' :: '*' :: rest => (afterComment? 0 rest).bind (dropSpaceWithin fuel)
      | '/' :: _ => none
      | rest => some rest

def dropSpace (text : List Char) : Option (List Char) := dropSpaceWithin (text.length + 1) text

def comma (text : List Char) : Option (Bool × List Char) := do
  match ← dropSpace text with
  | ',' :: rest => some (true, ← dropSpace rest)
  | rest => some (false, rest)

/-! ## Names -/

def startsName (c : Char) : Bool := c.isAlpha || c == '_'

def isNamePart (c : Char) : Bool := startsName c || c.isDigit

def isRawNamePart (c : Char) : Bool := isNamePart c || c == '.' || c == '+' || c == '-'

def wordEnd? (word : String) (text : List Char) : Option (List Char) :=
  (after? word.toList text).filter fun rest => !rest.head?.any isNamePart

def name : Parser String := fun text =>
  let plain := text.takeWhile isNamePart
  match text with
  | [] | ['r'] | 'r' :: '"' :: _ => none
  | 'r' :: '#' :: rest =>
      let raw := rest.takeWhile isRawNamePart
      if raw.isEmpty then none else some (String.ofList raw, rest.drop raw.length)
  | c :: _ =>
      if startsName c ∧ (text.takeWhile isRawNamePart).length = plain.length then
        some (String.ofList plain, text.drop plain.length)
      else none

/-! ## Strings and characters -/

def bracedDigits : Nat → List Nat → Parser (List Nat)
  | _, held, '\x7d' :: rest => if held.isEmpty then none else some (held.reverse, rest)
  | room + 1, held, c :: rest =>
      match hexValue? c with
      | some digit => bracedDigits room (digit :: held) rest
      | none => none
  | _, _, _ => none

def escape : Parser Char
  | [] => none
  | c :: rest =>
      if c = '\'' ∨ c = '"' ∨ c = '\\' then some (c, rest)
      else if c = 'n' then some ('\n', rest)
      else if c = 'r' then some ('\r', rest)
      else if c = 't' then some ('\t', rest)
      else if c = '0' then some ('\x00', rest)
      else if c = 'x' then hexChar 2 rest
      else if c = 'u' then do
        let rest ← after? ['\x7b'] rest
        let (digits, rest) ← bracedDigits 6 [] rest
        let code := numberOfHex digits
        if code.isValidChar then some (Char.ofNat code, rest) else none
      else none

def stringWithin : Nat → List Char → Parser (List Char)
  | _, _, [] => none
  | 0, _, _ :: _ => none
  | fuel + 1, held, c :: rest =>
      if c = '"' then some (held.reverse, rest)
      else if c = '\\' then
        match escape rest with
        | some (d, rest) => stringWithin fuel (d :: held) rest
        | none => none
      else stringWithin fuel (c :: held) rest

def upTo (mark : List Char) : List Char → Parser (List Char)
  | held, text =>
      match after? mark text, text with
      | some rest, _ => some (held.reverse, rest)
      | none, [] => none
      | none, c :: rest => upTo mark (c :: held) rest
  termination_by _ text => text.length

/-- A string; a raw one has as many number signs after it as before it. -/
def string : Parser String
  | '"' :: rest =>
      (stringWithin rest.length [] rest).map fun (chars, rest) => (String.ofList chars, rest)
  | 'r' :: rest => do
      let signs := rest.takeWhile (· = '#')
      let rest ← after? ['"'] (rest.drop signs.length)
      let (chars, rest) ← upTo ('"' :: signs) [] rest
      some (String.ofList chars, rest)
  | _ => none

def character : Parser Char
  | '\'' :: '\\' :: rest => do
      let (c, rest) ← escape rest
      some (c, ← after? ['\''] rest)
  | '\'' :: c :: '\'' :: rest => if c = '\'' then none else some (c, rest)
  | _ => none

end GameCatalog.Ron
