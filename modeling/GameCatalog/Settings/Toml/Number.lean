import GameCatalog.Settings.Toml.Scan
import GameCatalog.Settings.Value

/-!
# Numbers of TOML

Integers of 64 bits, in decimal or after a mark of their radix, and doubles. Single underscores may
stand between digits.
-/

namespace GameCatalog.Toml

open Text

def plainDigits? (isDigit : Char → Bool) (text : List Char) : Option (List Char) :=
  let groups := text.splitOn '_'
  if groups.all fun group => !group.isEmpty && group.all isDigit then some groups.flatten else none

def inRange? (n : Int) : Option Scalar := if isLong n then some (.int n) else none

def radixInt? (radix : Nat) (digits : List Char) : Option Scalar :=
  let isDigit := fun c => match hexValue? c with
    | some d => decide (d < radix)
    | none => false
  match plainDigits? isDigit digits with
  | some digits =>
      inRange? (digits.foldl (fun n c => n * radix + (hexValue? c).getD 0) 0 : Nat)
  | none => none

def wholeDigits? (text : List Char) : Option (List Char) :=
  match plainDigits? Char.isDigit text with
  | some digits => if digits.head? = some '0' ∧ digits.length ≠ 1 then none else some digits
  | none => none

def decimalInt? (text : List Char) : Option Scalar :=
  let (negative, digits) := splitSign text
  match wholeDigits? digits with
  | some digits =>
      let size := Nat.ofDigitChars 10 digits 0
      inRange? (if negative then -(size : Int) else size)
  | none => none

/-- The double nearest to a decimal. None is beyond the greatest double, but all numbers beyond the
least one count as minus infinity. -/
def decimal? (negative : Bool) (digits : Nat) (power : Int) : Option Scalar :=
  match Binary64.ofDecimal? negative digits power with
  | some x => some (.double (.finite x))
  | none => if negative then some (.double (.infinite true)) else none

def double? (text : List Char) : Option Scalar :=
  let (negative, unsigned) := splitSign text
  if unsigned = ['i', 'n', 'f'] then some (.double (.infinite negative))
  else if unsigned = ['n', 'a', 'n'] then some (.double .nan)
  else
    let isMark := fun c => c == '.' || c == 'e' || c == 'E'
    let whole := unsigned.takeWhile fun c => !isMark c
    let marked := unsigned.drop whole.length
    let (fraction, rest) := match marked with
      | '.' :: rest =>
          let fraction := rest.takeWhile fun c => !isMark c
          (some fraction, rest.drop fraction.length)
      | rest => (none, rest)
    let power := match rest with
      | [] => some 0
      | '.' :: _ => none
      | _ :: rest =>
          let (negative, digits) := splitSign rest
          (plainDigits? Char.isDigit digits).map fun digits =>
            let n := Nat.ofDigitChars 10 digits 0
            if negative then -(n : Int) else n
    let fractionDigits := match fraction with
      | none => some []
      | some fraction => plainDigits? Char.isDigit fraction
    if marked.isEmpty then none
    else match wholeDigits? whole, fractionDigits, power with
    | some whole, some fraction, some power =>
        decimal? negative (Nat.ofDigitChars 10 (whole ++ fraction) 0) (power - fraction.length)
    | _, _, _ => none

def word? (text : List Char) : Option Scalar :=
  match text with
  | ['t', 'r', 'u', 'e'] => some (.switch true)
  | ['f', 'a', 'l', 's', 'e'] => some (.switch false)
  | '0' :: 'x' :: digits => radixInt? 16 digits
  | '0' :: 'o' :: digits => radixInt? 8 digits
  | '0' :: 'b' :: digits => radixInt? 2 digits
  | _ => (decimalInt? text).or (double? text)

def isWordChar (c : Char) : Bool := isBareKeyChar c || c == '+' || c == '.'

end GameCatalog.Toml
