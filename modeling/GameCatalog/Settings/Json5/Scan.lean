import GameCatalog.Settings.Value
import GameCatalog.Text.Blank
import GameCatalog.Text.Hex
import GameCatalog.Text.Letter
import GameCatalog.Text.Surrogate

/-!
# Words of JSON5

White space with comments, strings in either kind of quotes, identifiers, and numbers, which may
have a sign, a point at either end or sixteen digits, and may be infinite or none.
-/

namespace GameCatalog.Json5

open Text

/-! ## White space -/

def isLineEnd (c : Char) : Bool :=
  c == '\n' || c == '\r' || c.toNat == 0x2028 || c.toNat == 0x2029

def isSpace (c : Char) : Bool :=
  isLineEnd c || isSpaceSeparator c || c == '\t' || c == '\x0b' || c == '\x0c' || c == '\ufeff'

def afterComment? : List Char → Option (List Char)
  | [] => none
  | '*' :: '/' :: rest => some rest
  | _ :: rest => afterComment? rest

def comment? : List Char → Option (List Char)
  | '/' :: '/' :: rest => some (rest.dropWhile fun c => !isLineEnd c)
  | '/' :: '*' :: rest => afterComment? rest
  | _ => none

def dropSpaceWithin : Nat → List Char → List Char
  | 0, text => text
  | fuel + 1, text =>
      let text := text.dropWhile isSpace
      match comment? text with
      | some rest => dropSpaceWithin fuel rest
      | none => text

def dropSpace (text : List Char) : List Char := dropSpaceWithin (text.length + 1) text

/-! ## Strings -/

/-- What follows the letter `u` of an escape: a leading surrogate needs a trailing one after it. -/
def unicodeEscape : Parser Char := fun text => do
  let (unit, rest) ← hexNumber 4 text
  if isTrailingSurrogate unit then none
  else if isLeadingSurrogate unit then
    let rest ← after? ['\\', 'u'] rest
    let (trailing, rest) ← hexNumber 4 rest
    if isTrailingSurrogate trailing then some (pairedChar unit trailing, rest) else none
  else some (Char.ofNat unit, rest)

def letterEscape? (c : Char) : Option Char :=
  if c = 'b' then some '\x08'
  else if c = 'f' then some '\x0c'
  else if c = 'n' then some '\n'
  else if c = 'r' then some '\r'
  else if c = 't' then some '\t'
  else if c = 'v' then some '\x0b'
  else if c = '0' then some '\x00'
  else none

/-- What follows a backslash. A line end stands for nothing, and a character without a meaning of
its own for itself. -/
def escape : Parser (List Char)
  | [] => none
  | '\r' :: '\n' :: rest => some ([], rest)
  | c :: rest =>
      if c = 'u' then (unicodeEscape rest).map fun (d, rest) => ([d], rest)
      else if c = 'x' then (hexChar 2 rest).map fun (d, rest) => ([d], rest)
      else if isLineEnd c then some ([], rest)
      else match letterEscape? c with
        | some d => some ([d], rest)
        | none => if c.isDigit then none else some ([c], rest)

def stringWithin (quote : Char) : Nat → List Char → Parser (List Char)
  | _, _, [] => none
  | 0, _, _ :: _ => none
  | fuel + 1, held, c :: rest =>
      if c = quote then some (held.reverse, rest)
      else if c = '\\' then
        match escape rest with
        | some (chars, rest) => stringWithin quote fuel (chars.reverse ++ held) rest
        | none => none
      else if isLineEnd c then none
      else stringWithin quote fuel (c :: held) rest

def string (quote : Char) : Parser String := fun text =>
  (stringWithin quote text.length [] text).map fun (chars, rest) => (String.ofList chars, rest)

/-! ## Identifiers -/

def startsIdentifier (c : Char) : Bool := isLetter c || c == '$' || c == '_'

def continuesIdentifier (c : Char) : Bool :=
  startsIdentifier c || isContinuation c || c == '\u200c' || c == '\u200d'

/-- The characters of an identifier, whose next one has to be as `isPart` says; an escape may be any
character. -/
def identifierWithin : Nat → (Char → Bool) → List Char → Parser (List Char)
  | 0, _, held, text => some (held.reverse, text)
  | fuel + 1, isPart, held, text =>
      match text with
      | '\\' :: 'u' :: rest =>
          match unicodeEscape rest with
          | some (c, rest) => identifierWithin fuel continuesIdentifier (c :: held) rest
          | none => none
      | c :: rest =>
          if isPart c then identifierWithin fuel continuesIdentifier (c :: held) rest
          else some (held.reverse, text)
      | [] => some (held.reverse, [])

def identifier : Parser String := fun text =>
  match identifierWithin text.length startsIdentifier [] text with
  | some (c :: chars, rest) => some (String.ofList (c :: chars), rest)
  | _ => none

/-! ## Numbers -/

def power (text : List Char) : Option Int × List Char :=
  match text with
  | [] => (none, text)
  | c :: rest =>
      let (negative, unsigned) := splitSign rest
      let digits := unsigned.takeWhile Char.isDigit
      if (c = 'e' ∨ c = 'E') ∧ digits ≠ [] then
        let n : Int := Nat.ofDigitChars 10 digits 0
        (some (if negative then -n else n), unsigned.drop digits.length)
      else (none, text)

def decimal (negative : Bool) : Parser Scalar := fun text =>
  let whole := text.takeWhile Char.isDigit
  let (fraction, rest) := match text.drop whole.length with
    | '.' :: rest => (some (rest.takeWhile Char.isDigit), rest.dropWhile Char.isDigit)
    | rest => (none, rest)
  let (power, rest) := power rest
  if whole.head? = some '0' ∧ whole.length ≠ 1 then none
  else if whole ++ fraction.getD [] = [] then none
  else
    let size := Nat.ofDigitChars 10 (whole ++ fraction.getD []) 0
    if fraction.isNone ∧ power.isNone then
      let n : Int := if negative then -size else size
      if isLong n then some (.int n, rest) else none
    else
      (Binary64.ofDecimal? negative size (power.getD 0 - (fraction.getD []).length)).map fun x =>
        (.double (.finite x), rest)

def hexadecimal : Parser Scalar := fun text =>
  let digits := text.takeWhile fun c => (hexValue? c).isSome
  match digits.mapM hexValue? with
  | some (d :: values) =>
      let n := numberOfHex (d :: values)
      if n < 0x100000000 then some (.int n, text.drop digits.length) else none
  | _ => none

/-- A number with its sign. Infinity and no number take no plus, and hexadecimal takes no sign. -/
def number : Parser Scalar := fun text =>
  let (negative, unsigned) := splitSign text
  let isSigned := unsigned.length ≠ text.length
  match after? "Infinity".toList unsigned, after? "NaN".toList unsigned, unsigned with
  | some rest, _, _ =>
      if isSigned ∧ !negative then none else some (.double (.infinite negative), rest)
  | _, some rest, _ => if isSigned ∧ !negative then none else some (.double .nan, rest)
  | _, _, '0' :: x :: digits =>
      if x = 'x' ∨ x = 'X' then (if isSigned then none else hexadecimal digits)
      else decimal negative unsigned
  | _, _, unsigned => decimal negative unsigned

end GameCatalog.Json5
