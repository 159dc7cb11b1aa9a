import GameCatalog.Binary64.Shortest

/-!
# How doubles are spelled

Two spellings of the shortest decimal: the one of data files, which always shows a point or an
exponent and takes the even one of two equally near decimals, and the plain one of settings, which
has neither exponent nor a needless point and takes the greater one.
-/

namespace GameCatalog

/-- The exponents that data files write without an exponent part. -/
structure PlainRange where
  least : Int
  greatest : Int

def dataFileRange : PlainRange := ⟨-5, 15⟩

def dataFileTie : Tie := .toEven

def plainTie : Tie := .away

namespace Decimal

/-- The digits with a point in their place; `tail` follows a number that has no fraction. -/
def positional (digits : List Char) (power : Int) (tail : List Char) : List Char :=
  if 0 ≤ power then digits ++ List.replicate power.toNat '0' ++ tail
  else
    let whole := digits.length + power
    if 0 < whole then digits.take whole.toNat ++ '.' :: digits.drop whole.toNat
    else '0' :: '.' :: List.replicate (-whole).toNat '0' ++ digits

def scientific (digits : List Char) (exponent : Int) : List Char :=
  let fraction := digits.drop 1
  digits.take 1 ++ (if fraction.isEmpty then [] else '.' :: fraction) ++
    'e' :: (if exponent < 0 then '-' else '+') :: Nat.toDigits 10 exponent.natAbs

end Decimal

namespace Binary64

def signChars (x : Binary64) : List Char := if x.negative then ['-'] else []

def dataText (x : Binary64) : List Char :=
  if x.significand = 0 then x.signChars ++ ['0', '.', '0']
  else
    let decimal := x.shortest dataFileTie
    let digits := Nat.toDigits 10 decimal.digits
    let exponent := digits.length - 1 + decimal.power
    x.signChars ++
      if dataFileRange.least ≤ exponent ∧ exponent ≤ dataFileRange.greatest then
        Decimal.positional digits decimal.power ['.', '0']
      else Decimal.scientific digits exponent

/-- The spelling in settings: positional throughout, and whole numbers without a point. -/
def plainText (x : Binary64) : List Char :=
  if x.significand = 0 then x.signChars ++ ['0']
  else
    let decimal := x.shortest plainTie
    x.signChars ++ Decimal.positional (Nat.toDigits 10 decimal.digits) decimal.power []

end Binary64

end GameCatalog
