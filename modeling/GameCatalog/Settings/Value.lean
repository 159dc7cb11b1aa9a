import GameCatalog.Binary64.Spelling

/-!
# Values of settings

A setting is a scalar, a list or a table of named settings, or it has no value. Scalars convert
freely: anything shows as text, and what reads as a number or as a switch counts as a natural
number. A variable of the environment is read as a switch, an integer or a double where it has that
form, and else stands for its text.
-/

namespace GameCatalog

/-- A double that may also be infinite or no number. -/
inductive AnyDouble where
  | finite (x : Binary64)
  | infinite (negative : Bool)
  | nan

inductive Scalar where
  | switch (on : Bool)
  | int (n : Int)
  | double (x : AnyDouble)
  | text (text : String)

inductive Setting where
  | absent
  | scalar (value : Scalar)
  | list (items : List Setting)
  | table (members : List (String × Setting))

/-! ## Conversions -/

/-- Whether an integer has at most 64 bits with its sign: from `-2 ^ 63` up to `2 ^ 63 - 1`. -/
def isLong (n : Int) : Bool := decide (-0x8000000000000000 ≤ n ∧ n < 0x8000000000000000)

def AnyDouble.text : AnyDouble → String
  | .finite x => String.ofList x.plainText
  | .infinite true => "-inf"
  | .infinite false => "inf"
  | .nan => "NaN"

def greatestNatural : Nat := 0xffffffffffffffff

def AnyDouble.nearestNatural : AnyDouble → Nat
  | .nan | .infinite true => 0
  | .infinite false => greatestNatural
  | .finite x =>
      if x.negative then 0
      else
        let scale := Nat.pow 2 (-x.exponent).toNat
        let twice := 2 * (x.significand * Nat.pow 2 x.exponent.toNat)
        min greatestNatural ((twice + scale) / (2 * scale))

def naturalOfDigits? (text : List Char) : Option Nat :=
  if text.isEmpty || !text.all Char.isDigit then none else some (Nat.ofDigitChars 10 text 0)

def splitSign : List Char → Bool × List Char
  | '-' :: rest => (true, rest)
  | '+' :: rest => (false, rest)
  | text => (false, text)

namespace Scalar

def toText : Scalar → String
  | .switch on => if on then "true" else "false"
  | .int n => toString n
  | .double x => x.text
  | .text words => words

def naturalOfText? (text : String) : Option Nat :=
  let word := text.toLower
  if word = "true" ∨ word = "on" ∨ word = "yes" then some 1
  else if word = "false" ∨ word = "off" ∨ word = "no" then some 0
  else
    let digits := match text.toList with
      | '+' :: rest => rest
      | chars => chars
    (naturalOfDigits? digits).filter (· ≤ greatestNatural)

def toNatural? : Scalar → Option Nat
  | .switch on => some (if on then 1 else 0)
  | .int n => if 0 ≤ n then some n.toNat else none
  | .double x => some x.nearestNatural
  | .text words => naturalOfText? words

/-! ## Variables of the environment -/

def int? (text : List Char) : Option Int :=
  let (negative, digits) := splitSign text
  match naturalOfDigits? digits with
  | none => none
  | some size =>
      let n : Int := if negative then -size else size
      if isLong n then some n else none

def power? : List Char → Option Int
  | [] => some 0
  | c :: rest =>
      if c = 'e' ∨ c = 'E' then
        let (negative, digits) := splitSign rest
        (naturalOfDigits? digits).map fun n => if negative then -(n : Int) else n
      else none

/-- A double: a word for infinity or for no number, or digits with an optional point and power. Too
large a number is infinite. -/
def double? (text : List Char) : Option AnyDouble :=
  let (negative, unsigned) := splitSign text
  let word := unsigned.map Char.toLower
  if word = ['i', 'n', 'f'] ∨ word = ['i', 'n', 'f', 'i', 'n', 'i', 't', 'y'] then
    some (.infinite negative)
  else if word = ['n', 'a', 'n'] then some .nan
  else
    let whole := unsigned.takeWhile Char.isDigit
    let rest := unsigned.dropWhile Char.isDigit
    let (fraction, rest) := match rest with
      | '.' :: rest => (rest.takeWhile Char.isDigit, rest.dropWhile Char.isDigit)
      | rest => ([], rest)
    match naturalOfDigits? (whole ++ fraction), power? rest with
    | some digits, some power =>
        match Binary64.ofDecimal? negative digits (power - fraction.length) with
        | some x => some (.finite x)
        | none => some (.infinite negative)
    | _, _ => none

def ofWord? (text : String) : Option Scalar :=
  let word := text.toLower
  if word = "true" then some (.switch true)
  else if word = "false" then some (.switch false)
  else match int? text.toList with
    | some n => some (.int n)
    | none => (double? text.toList).map .double

end Scalar

end GameCatalog
