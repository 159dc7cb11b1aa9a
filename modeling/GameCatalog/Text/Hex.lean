import GameCatalog.Text.Parser

/-!
# Hexadecimal digits

Numbers in hexadecimal: written in lower case, read in either case.
-/

namespace GameCatalog.Text

/-- Lower-case hexadecimal digits, without leading zeros. -/
def hexDigits (n : Nat) : List Char := Nat.toDigits 16 n

def hexValue? (c : Char) : Option Nat :=
  if c.isDigit then some (c.toNat - '0'.toNat)
  else if 'a' ≤ c ∧ c ≤ 'f' then some (c.toNat - 'a'.toNat + 10)
  else if 'A' ≤ c ∧ c ≤ 'F' then some (c.toNat - 'A'.toNat + 10)
  else none

def numberOfHex (digits : List Nat) : Nat := digits.foldl (fun n d => n * 16 + d) 0

def hexNumber (count : Nat) : Parser Nat := fun text =>
  match (text.take count).mapM hexValue? with
  | some digits =>
      if digits.length = count then some (numberOfHex digits, text.drop count) else none
  | none => none

def hexChar (count : Nat) : Parser Char := fun text => do
  let (code, rest) ← hexNumber count text
  if code.isValidChar then some (Char.ofNat code, rest) else none

example : (hexDigits 0x9c).mapM hexValue? = some [9, 12] := by decide +kernel

end GameCatalog.Text
