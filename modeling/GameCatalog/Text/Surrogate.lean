/-!
# Surrogates

Characters beyond the first 65536 are spelled as a pair of numbers, a leading and a trailing
surrogate.
-/

namespace GameCatalog.Text

def isLeadingSurrogate (unit : Nat) : Bool := 0xd800 ≤ unit && unit < 0xdc00

def isTrailingSurrogate (unit : Nat) : Bool := 0xdc00 ≤ unit && unit < 0xe000

def pairedChar (leading trailing : Nat) : Char :=
  Char.ofNat (0x10000 + (leading - 0xd800) * 0x400 + (trailing - 0xdc00))

example : pairedChar 0xd83d 0xde00 = '😀' := by decide

end GameCatalog.Text
