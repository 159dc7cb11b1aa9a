import GameCatalog.Binary64.Scaling
import GameCatalog.Json.Fault
import GameCatalog.Text.Hex
import GameCatalog.Text.Surrogate

/-!
# Reading blanks, words, numbers and strings

A reader takes the characters that are left and answers with a result and the rest, or with the
fault at the first character that cannot go on. The text is read from left to right, so the first
fault met is the one reported.
-/

namespace GameCatalog.Json

abbrev Reader (α : Type) := List Char → Except Fault (α × List Char)

def isBlank (c : Char) : Bool := c == ' ' || c == '\t' || c == '\n' || c == '\r'

def dropBlanks (text : List Char) : List Char := text.dropWhile isBlank

def expect : List Char → Reader Unit
  | [], text => .ok ((), text)
  | _ :: _, [] => .error .truncated
  | c :: word, d :: rest => if c = d then expect word rest else .error .malformed

def symbol (c : Char) : Reader Unit := fun text => expect [c] (dropBlanks text)

/-! ## Numbers -/

structure Numeral where
  negative : Bool
  whole : List Char
  fraction : Option (List Char)
  exponent : Option (Bool × List Char)

/-- One or more digits. `atEnd` is the fault of a text that ends before the first of them. -/
def digits (atEnd : Fault) : Reader (List Char) := fun text =>
  let run := text.takeWhile Char.isDigit
  if run.isEmpty then .error (if text.isEmpty then atEnd else .malformed)
  else .ok (run, text.dropWhile Char.isDigit)

def wholeDigits (atEnd : Fault) : Reader (List Char) := fun text => do
  let (run, rest) ← digits atEnd text
  if run.head? = some '0' ∧ run.length ≠ 1 then .error .malformed else .ok (run, rest)

def fraction (atEnd : Fault) : Reader (Option (List Char))
  | '.' :: text => do
      let (run, rest) ← digits atEnd text
      .ok (some run, rest)
  | text => .ok (none, text)

def sign : List Char → Bool × List Char
  | '-' :: text => (true, text)
  | '+' :: text => (false, text)
  | text => (false, text)

def exponent (atEnd : Fault) : Reader (Option (Bool × List Char))
  | c :: text =>
      if c = 'e' ∨ c = 'E' then do
        let (negative, text) := sign text
        let (run, rest) ← digits atEnd text
        .ok (some (negative, run), rest)
      else .ok (none, c :: text)
  | [] => .ok (none, [])

def numeral (atEnd : Fault) : Reader Numeral := fun text => do
  let (negative, text) := match text with
    | '-' :: rest => (true, rest)
    | _ => (false, text)
  let (whole, text) ← wholeDigits atEnd text
  let (fraction, text) ← fraction atEnd text
  let (exponent, text) ← exponent atEnd text
  .ok (⟨negative, whole, fraction, exponent⟩, text)

namespace Numeral

def natural (digits : List Char) : Nat := Nat.ofDigitChars 10 digits 0

/-- Adds digits to a number of 64 bits as long as it stays one, and leaves the digits after these. -/
def gather : Nat → List Char → Nat × List Char
  | held, [] => (held, [])
  | held, digit :: rest =>
      let next := held * 10 + (digit.toNat - '0'.toNat)
      if next < 0x10000000000000000 then gather next rest else (held, digit :: rest)

def writtenPower (numeral : Numeral) : Int :=
  match numeral.exponent with
  | none => 0
  | some (true, digits) => -(natural digits : Int)
  | some (false, digits) => natural digits

/-- The digits that count, as a number of 64 bits, and the power of ten that it is to be multiplied
with. Digits before the point that do not fit are left out, and then those after it, so a digit after
the point may fit where one before it did not. -/
def parts (numeral : Numeral) : Nat × Int :=
  let fraction := numeral.fraction.getD []
  let (whole, beyond) := gather 0 numeral.whole
  let (significand, left) := gather whole fraction
  (significand, numeral.writtenPower + beyond.length - (fraction.length - left.length : Nat))

def double? (numeral : Numeral) : Option Binary64 :=
  (Binary64.ofParts? numeral.parts.1 numeral.parts.2).map (.withSign numeral.negative)

def integer (numeral : Numeral) : Int :=
  if numeral.negative then -(natural numeral.whole : Int) else natural numeral.whole

/-- The number that a numeral stands for. Without fraction and exponent it is an integer if that has
64 bits, save that minus zero is a double. -/
def value? (numeral : Numeral) : Option Number :=
  if h : InWideRange numeral.integer ∧ numeral.fraction = none ∧ numeral.exponent = none ∧
      ¬(numeral.negative ∧ numeral.integer = 0) then some (.int numeral.integer h.1)
  else numeral.double?.map .float

end Numeral

def number : Reader Number := fun text => do
  let (numeral, rest) ← numeral .truncated text
  match numeral.value? with
  | some n => .ok (n, rest)
  | none => .error .malformed

/-! ## Strings -/

def byteCount : List Char → Nat
  | [] => 0
  | c :: rest => c.utf8Size + byteCount rest

/-- Four hexadecimal digits. A text counts as ended when fewer than four bytes are left, whatever
they hold. -/
def fourHexDigits : Reader Nat := fun text =>
  if byteCount (text.take 4) < 4 then .error .truncated
  else match text with
    | a :: b :: c :: d :: rest =>
        match Text.hexValue? a, Text.hexValue? b, Text.hexValue? c, Text.hexValue? d with
        | some a, some b, some c, some d => .ok (((a * 16 + b) * 16 + c) * 16 + d, rest)
        | _, _, _, _ => .error .malformed
    | _ => .error .malformed

/-- What follows the letter `u` of an escape: a leading surrogate needs a trailing one after it. -/
def unicodeEscape : Reader Char := fun text => do
  let (unit, rest) ← fourHexDigits text
  if Text.isTrailingSurrogate unit then .error .malformed
  else if Text.isLeadingSurrogate unit then
    let (_, rest) ← expect ['\\', 'u'] rest
    let (trailing, rest) ← fourHexDigits rest
    if Text.isTrailingSurrogate trailing then .ok (Text.pairedChar unit trailing, rest)
    else .error .malformed
  else .ok (Char.ofNat unit, rest)

def letterEscape? (c : Char) : Option Char :=
  if c = '"' ∨ c = '\\' ∨ c = '/' then some c
  else if c = 'b' then some '\x08'
  else if c = 'f' then some '\x0c'
  else if c = 'n' then some '\n'
  else if c = 'r' then some '\r'
  else if c = 't' then some '\t'
  else none

/-- What follows a backslash; `unicode` reads on after the letter `u`. -/
def escape (unicode : Reader Char) : Reader Char
  | [] => .error .truncated
  | c :: rest =>
      if c = 'u' then unicode rest
      else match letterEscape? c with
        | some d => .ok (d, rest)
        | none => .error .malformed

/-- The characters up to the closing quote; `held` are those read, the last one first. Each step
takes a character at least, so a text as long as the one to read is a bound on the steps. -/
def stringChars (unicode : Reader Char) : List Char → List Char → Reader (List Char)
  | _, _, [] => .error .truncated
  | [], _, _ :: _ => .error .truncated
  | _ :: bound, held, c :: rest =>
      if c = '"' then .ok (held.reverse, rest)
      else if c = '\\' then do
        let (d, rest) ← escape unicode rest
        stringChars unicode bound (d :: held) rest
      else if c.toNat < 0x20 then .error .malformed
      else stringChars unicode bound (c :: held) rest

def string : Reader String := fun text => do
  let (chars, rest) ← stringChars unicodeEscape text [] text
  .ok (String.ofList chars, rest)

end GameCatalog.Json
