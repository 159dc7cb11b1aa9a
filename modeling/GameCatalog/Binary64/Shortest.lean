import GameCatalog.Binary64.Basic

/-!
# The shortest decimal of a double

Of all decimals that read back as a given double, the shortest ones lie on the coarsest decimal
grid that has a point among the reals rounding to that double. On that grid the point nearest to the
value is taken, and a spelling says which one of two equally near points that is. All comparisons
are exact, between naturals.
-/

namespace GameCatalog

/-- The number `digits * 10 ^ power`. -/
structure Decimal where
  digits : Nat
  power : Int
deriving DecidableEq, Repr

/-- Which one of two equally near grid points counts as the nearest: the even one, or the one
farther from zero. -/
inductive Tie where
  | toEven
  | away
deriving DecidableEq

namespace Tie

def takesLower (tie : Tie) (below : Nat) : Bool :=
  match tie with
  | .toEven => below % 2 == 0
  | .away => false

end Tie

namespace Binary64

/-- How far below the value, in quarters of a unit, reals still round to it: the gap below a power
of two is half as wide. -/
def quartersBelow (x : Binary64) : Nat :=
  if x.significand = 0x10000000000000 ∧ -1074 < x.exponent then 1 else 2

/-- The multiple of `10 ^ power` nearest to the size of `x`, if it rounds to `x`. The two multiples
around the value are looked at; the ends of the interval belong to an even significand. -/
def gridPoint? (tie : Tie) (x : Binary64) (power : Int) : Option Nat :=
  let quarter := x.exponent - 2
  let unit := Nat.pow 2 quarter.toNat * Nat.pow 10 (-power).toNat
  let grid := Nat.pow 2 (-quarter).toNat * Nat.pow 10 power.toNat
  let value := 4 * x.significand * unit
  let low := (4 * x.significand - x.quartersBelow) * unit
  let high := (4 * x.significand + 2) * unit
  let ends := x.significand % 2 == 0
  let below := value / grid
  let above := below + 1
  let belowFits := low < below * grid || (ends && low == below * grid)
  let aboveFits := above * grid < high || (ends && high == above * grid)
  let toBelow := value - below * grid
  let toAbove := above * grid - value
  if belowFits && aboveFits then
    some (if toBelow < toAbove ∨ (toBelow = toAbove ∧ tie.takesLower below) then below
      else above)
  else if belowFits then some below
  else if aboveFits then some above
  else none

/-- A power of ten above the size of a number other than zero: `30103 / 100000` bounds the decimal
length of a power of two. -/
def powerAbove (x : Binary64) : Int :=
  (x.significand.log2 + 1 + x.exponent) * 30103 / 100000 + 1

def exactDecimal (x : Binary64) : Decimal :=
  if x.exponent < 0 then ⟨x.significand * Nat.pow 5 (-x.exponent).toNat, x.exponent⟩
  else ⟨x.significand * Nat.pow 2 x.exponent.toNat, 0⟩

/-- The shortest decimal of the size of `x`. Seventeen digits always tell two doubles apart, so
twenty grids from above the value are enough. -/
def shortest (tie : Tie) (x : Binary64) : Decimal :=
  ((List.range 20).findSome? fun (i : Nat) =>
    let power := x.powerAbove - (i : Int)
    (x.gridPoint? tie power).map fun digits => Decimal.mk digits power).getD x.exactDecimal

end Binary64

end GameCatalog
