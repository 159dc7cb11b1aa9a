/-!
# Finite double-precision numbers

A finite double is held as a sign and an exact value `significand * 2 ^ exponent`. The significand
has 53 bits unless the exponent is the least one, so every double other than zero has one form.
Rounding takes an exact quotient to the nearest double, a half going to the even significand.
-/

namespace GameCatalog

/-- The form of a double's significand and exponent: below `2 ^ 53`, and at least `2 ^ 52` above the
least exponent. -/
def Binary64.Canonical (significand : Nat) (exponent : Int) : Prop :=
  significand < 0x20000000000000 ∧ -1074 ≤ exponent ∧ exponent ≤ 971 ∧
    (0x10000000000000 ≤ significand ∨ exponent = -1074)

instance (significand : Nat) (exponent : Int) :
    Decidable (Binary64.Canonical significand exponent) := by
  unfold Binary64.Canonical
  infer_instance

/-- A finite double; zero has a sign too. -/
structure Binary64 where
  negative : Bool
  significand : Nat
  exponent : Int
  canonical : Binary64.Canonical significand exponent
deriving DecidableEq

namespace Binary64

def zero (negative : Bool) : Binary64 := ⟨negative, 0, -1074, by decide⟩

/-- Equality of values: the two zeros are equal. -/
def same (x y : Binary64) : Bool :=
  x == y || (x.significand == 0 && y.significand == 0)

theorem same_iff (x y : Binary64) :
    x.same y = true ↔ x = y ∨ (x.significand = 0 ∧ y.significand = 0) := by
  simp [same]

/-! ## Rounding -/

/-- The integer nearest to `num / den`, of two the even one. -/
def nearestInteger (num den : Nat) : Nat :=
  let below := num / den
  let twice := 2 * (num % den)
  if twice < den ∨ (twice = den ∧ below % 2 = 0) then below else below + 1

def inUnits (num den : Nat) (exponent : Int) : Nat × Nat :=
  (num * Nat.pow 2 (-exponent).toNat, den * Nat.pow 2 exponent.toNat)

/-- The exponent at which the quotient has a 53-bit integer part, but never below the least one.
The lengths of the two numbers fix it up to one. -/
def exponentFor (num den : Nat) : Int :=
  let guess := max ((num.log2 : Int) - den.log2 - 53) (-1074)
  let (n, d) := inUnits num den guess
  if n / d < 0x20000000000000 then guess else guess + 1

def ofQuotient? (negative : Bool) (num den : Nat) : Option Binary64 :=
  let exponent := exponentFor num den
  let (n, d) := inUnits num den exponent
  let rounded := nearestInteger n d
  let (significand, exponent) :=
    if rounded = 0x20000000000000 then (0x10000000000000, exponent + 1) else (rounded, exponent)
  if h : Canonical significand exponent then some ⟨negative, significand, exponent, h⟩ else none

/-- The double nearest to `digits * 10 ^ power`. A number of `n` digits lies below `10 ^ n`, so the
cases far above and far below every double need no arithmetic. -/
def ofDecimal? (negative : Bool) (digits : Nat) (power : Int) : Option Binary64 :=
  if digits = 0 then some (zero negative)
  else
    let magnitude := (Nat.toDigits 10 digits).length + power
    if 310 < magnitude then none
    else if magnitude < -330 then some (zero negative)
    else ofQuotient? negative (digits * Nat.pow 10 power.toNat) (Nat.pow 10 (-power).toNat)

def ofInt? (n : Int) : Option Binary64 := ofDecimal? (n < 0) n.natAbs 0

end Binary64

end GameCatalog
