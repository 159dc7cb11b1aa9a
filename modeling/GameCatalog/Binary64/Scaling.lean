import GameCatalog.Binary64.Basic

/-!
# Reading decimals by steps

A decimal of data files is not rounded as a whole. Its significand is rounded to a double, which is
then multiplied or divided by doubles for powers of ten, and each of these steps rounds again. So the
double may be a neighbour of the nearest one; of small numbers, where no step but the last one rounds,
it is the nearest one.
-/

namespace GameCatalog.Binary64

/-- The size as a quotient of naturals. -/
def quotient (x : Binary64) : Nat × Nat :=
  (x.significand * Nat.pow 2 x.exponent.toNat, Nat.pow 2 (-x.exponent).toNat)

def nearest? (num den : Nat) : Option Binary64 :=
  if num = 0 then some (zero false) else ofQuotient? false num den

def times? (x y : Binary64) : Option Binary64 :=
  nearest? (x.quotient.1 * y.quotient.1) (x.quotient.2 * y.quotient.2)

def over? (x y : Binary64) : Option Binary64 :=
  nearest? (x.quotient.1 * y.quotient.2) (x.quotient.2 * y.quotient.1)

def greatestPower : Nat := 308

def powerOfTen? (power : Nat) : Option Binary64 := nearest? (Nat.pow 10 power) 1

/-- Divides by the greatest power of ten as many times, unless nothing is left, and then by a smaller
one. -/
def lowered? : Nat → Nat → Binary64 → Option Binary64
  | 0, power, x => do x.over? (← powerOfTen? power)
  | steps + 1, power, x =>
      if x.significand = 0 then some x
      else do lowered? steps power (← x.over? (← powerOfTen? greatestPower))

/-- What `significand * 10 ^ power` is read as; none when it is too large for a finite double. -/
def ofParts? (significand : Nat) (power : Int) : Option Binary64 := do
  let x ← nearest? significand 1
  if 0 ≤ power then
    if power ≤ greatestPower then x.times? (← powerOfTen? power.toNat)
    else if significand = 0 then some x
    else none
  else
    let steps := (power.natAbs - 1) / greatestPower
    lowered? steps (power.natAbs - steps * greatestPower) x

def withSign (negative : Bool) (x : Binary64) : Binary64 := { x with negative }

end GameCatalog.Binary64
