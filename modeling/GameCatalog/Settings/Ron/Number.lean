import GameCatalog.Settings.Ron.Scan
import GameCatalog.Settings.Value

/-!
# Numbers of RON

A number is an integer in one of four radixes, whose digits underscores may part, or a double. What
looks like an integer and is none within 64 bits is read as a double.
-/

namespace GameCatalog.Ron

open Text

def isIntegerChar (c : Char) : Bool := (hexValue? c).isSome || c == '_'

def isDoubleChar (c : Char) : Bool :=
  c.isDigit || c == 'e' || c == 'E' || c == '.' || c == '+' || c == '-' || c == '_'

def radix : List Char → Nat × List Char
  | '0' :: 'x' :: rest => (16, rest)
  | '0' :: 'b' :: rest => (2, rest)
  | '0' :: 'o' :: rest => (8, rest)
  | text => (10, text)

def size : Parser Nat := fun text =>
  let (radix, rest) := radix text
  let chars := rest.takeWhile isIntegerChar
  let digits := (chars.filter (· ≠ '_')).mapM fun c => (hexValue? c).filter (· < radix)
  match chars, digits with
  | [], _ | '_' :: _, _ | _, none => none
  | _, some digits => some (digits.foldl (fun n d => n * radix + d) 0, rest.drop chars.length)

def integer : Parser Scalar := fun text => do
  let (negative, unsigned) := splitSign text
  let (size, rest) ← size unsigned
  let n : Int := if negative then -size else size
  if isLong n then some (.int n, rest)
  else if unsigned = text ∧ size ≤ greatestNatural then
    (Binary64.ofInt? n).map fun x => (.double (.finite x), rest)
  else none

def double : Parser Scalar := fun text =>
  match wordEnd? "inf" text, wordEnd? "-inf" text, wordEnd? "NaN" text with
  | some rest, _, _ => some (.double (.infinite false), rest)
  | _, some rest, _ => some (.double (.infinite true), rest)
  | _, _, some rest => some (.double .nan, rest)
  | _, _, _ =>
      let chars := text.takeWhile isDoubleChar
      (Scalar.double? chars).map fun x => (.double x, text.drop chars.length)

/-- A number. It is a double where that takes more of the text than an integer. -/
def number : Parser Scalar := fun text =>
  let (_, unsigned) := splitSign text
  if (unsigned.takeWhile isIntegerChar).length < (unsigned.takeWhile isDoubleChar).length then
    double text
  else (integer text).or (double text)

end GameCatalog.Ron
