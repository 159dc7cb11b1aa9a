import GameCatalog.Binary64.Basic
import GameCatalog.Binary64.Shortest
import Mathlib.Algebra.Order.Field.Power
import Mathlib.Data.Rat.Cast.Order
import Mathlib.Tactic.FieldSimp
import Mathlib.Tactic.Linarith
import Mathlib.Tactic.NormNum
import Mathlib.Tactic.Positivity
import Mathlib.Tactic.Ring

/-!
# What rounds to a double

Around each double other than zero lies the interval of the numbers nearest to it; its ends, halfway
to the neighbours, belong to it when the significand is even. Rounding a quotient, and so reading a
decimal, gives the double in whose interval the number lies.
-/

namespace GameCatalog.Binary64

/-! ## Powers with an integer exponent -/

theorem zpow_mul_pow_toNat {base : ℚ} (h : base ≠ 0) (exponent : Int) :
    base ^ exponent * base ^ (-exponent).toNat = base ^ exponent.toNat := by
  rw [← zpow_natCast base (-exponent).toNat, ← zpow_natCast base exponent.toNat, ← zpow_add₀ h]
  congr 1
  omega

theorem two_zpow_pos (exponent : Int) : (0 : ℚ) < 2 ^ exponent := zpow_pos two_pos exponent

theorem two_zpow_succ (exponent : Int) : (2 : ℚ) ^ (exponent + 1) = 2 * 2 ^ exponent := by
  rw [zpow_add_one₀ two_ne_zero, mul_comm]

/-! ## Intervals -/

/-- The lower end of the interval, halfway to the next double below. -/
def low (x : Binary64) : ℚ :=
  (4 * x.significand - x.quartersBelow) * 2 ^ (x.exponent - 2)

def high (x : Binary64) : ℚ := (4 * x.significand + 2) * 2 ^ (x.exponent - 2)

/-- The double is the nearest one to a number, or of two nearest ones the one with the even
significand. -/
structure Attracts (x : Binary64) (q : ℚ) : Prop where
  lower : x.low ≤ q
  upper : q ≤ x.high
  ends : x.significand % 2 = 1 → x.low < q ∧ q < x.high

theorem quartersBelow_le (x : Binary64) : x.quartersBelow ≤ 2 := by
  unfold quartersBelow
  split <;> omega

theorem quartersBelow_pos (x : Binary64) : 1 ≤ x.quartersBelow := by
  unfold quartersBelow
  split <;> omega

theorem two_zpow_quarter (exponent : Int) : (2 : ℚ) ^ exponent = 4 * 2 ^ (exponent - 2) := by
  have h : exponent = exponent - 2 + 2 := by omega
  rw [h, zpow_add₀ two_ne_zero]
  norm_num
  ring

theorem low_eq (x : Binary64) :
    x.low = (x.significand - x.quartersBelow / 4) * 2 ^ x.exponent := by
  rw [low, two_zpow_quarter x.exponent]
  ring

theorem high_eq (x : Binary64) : x.high = (x.significand + 1 / 2) * 2 ^ x.exponent := by
  rw [high, two_zpow_quarter x.exponent]
  ring

/-! ## Nearest integers -/

/-- The integer to which a quotient is rounded, with the halves and the fraction multiplied out. -/
theorem nearestInteger_eq_of_doubled {num den r : Nat} (hden : 0 < den)
    (lower : 2 * r * den ≤ 2 * num + den) (upper : 2 * num ≤ 2 * r * den + den)
    (ends : r % 2 = 1 → 2 * r * den < 2 * num + den ∧ 2 * num < 2 * r * den + den) :
    nearestInteger num den = r := by
  have split := Nat.div_add_mod num den
  have hrem := Nat.mod_lt num hden
  unfold nearestInteger
  simp only
  generalize num / den = below at *
  generalize num % den = rem at *
  subst split
  have below_le : below ≤ r := by
    by_contra hlt
    have hm : den * (r + 1) ≤ den * below := Nat.mul_le_mul_left den (by omega)
    nlinarith
  have le_above : r ≤ below + 1 := by
    by_contra hlt
    have hm : den * (below + 2) ≤ den * r := Nat.mul_le_mul_left den (by omega)
    nlinarith
  obtain rfl | rfl : r = below ∨ r = below + 1 := by omega
  · rw [if_pos]
    by_cases odd : r % 2 = 1
    · exact .inl (by nlinarith [ends odd])
    · have hle : 2 * rem ≤ den := by nlinarith
      omega
  · rw [if_neg]
    by_cases odd : (below + 1) % 2 = 1
    · have hlt : den < 2 * rem := by nlinarith [ends odd]
      omega
    · have hle : den ≤ 2 * rem := by nlinarith
      omega

/-- The integer to which a quotient is rounded: closer than a half, or at a half and even. -/
theorem nearestInteger_eq {num den r : Nat} (hden : 0 < den) (lower : (r : ℚ) - 1 / 2 ≤ num / den)
    (upper : (num : ℚ) / den ≤ r + 1 / 2)
    (ends : r % 2 = 1 → (r : ℚ) - 1 / 2 < num / den ∧ (num : ℚ) / den < r + 1 / 2) :
    nearestInteger num den = r := by
  have hd : (0 : ℚ) < den := by exact_mod_cast hden
  rw [le_div_iff₀ hd] at lower
  rw [div_le_iff₀ hd] at upper
  rw [lt_div_iff₀ hd, div_lt_iff₀ hd] at ends
  refine nearestInteger_eq_of_doubled hden ?_ ?_ fun odd => ?_
  · have : (2 * r * den : ℚ) ≤ 2 * num + den := by linarith
    exact_mod_cast this
  · have : (2 * num : ℚ) ≤ 2 * r * den + den := by linarith
    exact_mod_cast this
  · obtain ⟨strict, strict'⟩ := ends odd
    constructor
    · have : (2 * r * den : ℚ) < 2 * num + den := by linarith
      exact_mod_cast this
    · have : (2 * num : ℚ) < 2 * r * den + den := by linarith
      exact_mod_cast this

/-! ## The exponent of a quotient -/

theorem inUnits_den_pos {den : Nat} (h : 0 < den) (num : Nat) (exponent : Int) :
    0 < (inUnits num den exponent).2 :=
  Nat.mul_pos h (Nat.pow_pos two_pos)

theorem inUnits_div (num : Nat) {den : Nat} (h : 0 < den) (exponent : Int) :
    ((inUnits num den exponent).1 : ℚ) / (inUnits num den exponent).2 =
      num / den / 2 ^ exponent := by
  have hd : (den : ℚ) ≠ 0 := by exact_mod_cast h.ne'
  have hpow := zpow_mul_pow_toNat (two_ne_zero : (2 : ℚ) ≠ 0) exponent
  have hpos := two_zpow_pos exponent
  have hnat : (2 : ℚ) ^ exponent.toNat ≠ 0 := by positivity
  unfold inUnits
  simp only [Nat.pow_eq, Nat.cast_mul, Nat.cast_pow, Nat.cast_ofNat]
  field_simp
  rw [mul_assoc, mul_comm ((2 : ℚ) ^ (-exponent).toNat), hpow]

theorem inUnits_div_lt_iff (num : Nat) {den : Nat} (h : 0 < den) (exponent : Int) (bound : Nat) :
    (inUnits num den exponent).1 / (inUnits num den exponent).2 < bound ↔
      (num : ℚ) / den < bound * 2 ^ exponent := by
  have units_pos := inUnits_den_pos h num exponent
  have hd : (0 : ℚ) < (inUnits num den exponent).2 := by exact_mod_cast units_pos
  rw [Nat.div_lt_iff_lt_mul units_pos, ← div_lt_iff₀ (two_zpow_pos exponent),
    ← inUnits_div num h exponent, div_lt_iff₀ hd]
  exact_mod_cast Iff.rfl

/-- At this exponent the number has a 53-bit integer part, or the exponent is the least one. -/
structure Fits (exponent : Int) (q : ℚ) : Prop where
  least : -1074 ≤ exponent
  below : q < 2 ^ 53 * 2 ^ exponent
  above : 2 ^ 52 * 2 ^ exponent ≤ q ∨ exponent = -1074

theorem Fits.le {exponent other : Int} {q : ℚ} (h : Fits exponent q) (h' : Fits other q) :
    exponent ≤ other := by
  by_contra hlt
  have hle : other + 1 ≤ exponent := by omega
  have hpow : (2 : ℚ) ^ (other + 1) ≤ 2 ^ exponent := zpow_le_zpow_right₀ one_le_two hle
  rw [two_zpow_succ] at hpow
  have hother := h'.below
  rcases h.above with habove | hleast
  · linarith
  · have := h'.least
    omega

theorem Fits.unique {exponent other : Int} {q : ℚ} (h : Fits exponent q) (h' : Fits other q) :
    exponent = other :=
  le_antisymm (h.le h') (h'.le h)

/-- The lengths of the two numbers tell the size of their quotient up to a factor of four. -/
theorem quotient_bounds {num den : Nat} (hnum : 0 < num) (hden : 0 < den) :
    (2 : ℚ) ^ ((num.log2 : Int) - den.log2 - 1) ≤ num / den ∧
      (num : ℚ) / den < 2 ^ ((num.log2 : Int) - den.log2 + 1) := by
  have hd : (0 : ℚ) < den := by exact_mod_cast hden
  have num_low : (2 : ℚ) ^ (num.log2 : Int) ≤ num := by
    exact_mod_cast Nat.log2_self_le hnum.ne'
  have num_high : (num : ℚ) < 2 ^ ((num.log2 : Int) + 1) := by
    exact_mod_cast Nat.lt_log2_self (n := num)
  have den_low : (2 : ℚ) ^ (den.log2 : Int) ≤ den := by
    exact_mod_cast Nat.log2_self_le hden.ne'
  have den_high : (den : ℚ) < 2 ^ ((den.log2 : Int) + 1) := by
    exact_mod_cast Nat.lt_log2_self (n := den)
  constructor
  · rw [le_div_iff₀ hd]
    have split : (2 : ℚ) ^ (num.log2 : Int) =
        2 ^ ((num.log2 : Int) - den.log2 - 1) * 2 ^ ((den.log2 : Int) + 1) := by
      rw [← zpow_add₀ two_ne_zero]
      congr 1
      omega
    have hpos := two_zpow_pos ((num.log2 : Int) - den.log2 - 1)
    calc (2 : ℚ) ^ ((num.log2 : Int) - den.log2 - 1) * den
        ≤ 2 ^ ((num.log2 : Int) - den.log2 - 1) * 2 ^ ((den.log2 : Int) + 1) :=
          mul_le_mul_of_nonneg_left den_high.le hpos.le
      _ = 2 ^ (num.log2 : Int) := split.symm
      _ ≤ num := num_low
  · rw [div_lt_iff₀ hd]
    have split : (2 : ℚ) ^ ((num.log2 : Int) + 1) =
        2 ^ ((num.log2 : Int) - den.log2 + 1) * 2 ^ (den.log2 : Int) := by
      rw [← zpow_add₀ two_ne_zero]
      congr 1
      omega
    have hpos := two_zpow_pos ((num.log2 : Int) - den.log2 + 1)
    calc (num : ℚ) < 2 ^ ((num.log2 : Int) + 1) := num_high
      _ = 2 ^ ((num.log2 : Int) - den.log2 + 1) * 2 ^ (den.log2 : Int) := split
      _ ≤ 2 ^ ((num.log2 : Int) - den.log2 + 1) * den :=
          mul_le_mul_of_nonneg_left den_low hpos.le

theorem fits_exponentFor {num den : Nat} (hnum : 0 < num) (hden : 0 < den) :
    Fits (exponentFor num den) (num / den) := by
  obtain ⟨quotient_low, quotient_high⟩ := quotient_bounds hnum hden
  unfold exponentFor
  simp only
  generalize hguess : max ((num.log2 : Int) - den.log2 - 53) (-1074) = guess
  have whole_lt : (inUnits num den guess).1 / (inUnits num den guess).2 < 0x20000000000000 ↔
      (num : ℚ) / den < 2 ^ 53 * 2 ^ guess := by
    rw [inUnits_div_lt_iff num hden]
    norm_num
  have high : (num : ℚ) / den < 2 ^ (guess + 54) :=
    quotient_high.trans_le (zpow_le_zpow_right₀ one_le_two (by omega))
  split
  next hlt =>
    refine ⟨by omega, whole_lt.mp hlt, ?_⟩
    by_cases hleast : guess = -1074
    · exact .inr hleast
    · left
      have hexp : (num.log2 : Int) - den.log2 - 1 = 52 + guess := by omega
      rw [hexp, zpow_add₀ two_ne_zero] at quotient_low
      exact_mod_cast quotient_low
  next hge =>
    rw [whole_lt, not_lt] at hge
    refine ⟨by omega, ?_, .inl ?_⟩
    · have hexp : guess + 54 = 53 + (guess + 1) := by omega
      rw [hexp, zpow_add₀ two_ne_zero] at high
      exact_mod_cast high
    · rw [two_zpow_succ]
      linarith

/-! ## Rounding a quotient -/

theorem low_pos {x : Binary64} (nonzero : x.significand ≠ 0) : 0 < x.low := by
  have hpos := two_zpow_pos (x.exponent - 2)
  have hm : (1 : ℚ) ≤ x.significand := by exact_mod_cast Nat.one_le_iff_ne_zero.mpr nonzero
  have hq : (x.quartersBelow : ℚ) ≤ 2 := by exact_mod_cast x.quartersBelow_le
  exact mul_pos (by linarith) hpos

theorem high_lt (x : Binary64) : x.high < 2 ^ 53 * 2 ^ x.exponent := by
  have hpos := two_zpow_pos x.exponent
  have hm : (x.significand : ℚ) + 1 ≤ 2 ^ 53 := by exact_mod_cast x.canonical.1
  rw [high_eq]
  nlinarith

/-- A number that rounds to a double fits the exponent of that double, or lies just below a power of
two, where the doubles are twice as dense. -/
theorem Attracts.fits {x : Binary64} {q : ℚ} (h : x.Attracts q) :
    Fits x.exponent q ∨ (x.significand = 0x10000000000000 ∧
      (2 ^ 53 - 1 / 2) * 2 ^ (x.exponent - 1) ≤ q ∧ Fits (x.exponent - 1) q) := by
  obtain ⟨-, least, -, normal⟩ := x.canonical
  have hlow := h.lower
  have hpos := two_zpow_pos x.exponent
  have hbelow := h.upper.trans_lt x.high_lt
  rw [low_eq] at hlow
  by_cases hleast : x.exponent = -1074
  · exact .inl ⟨least, hbelow, .inr hleast⟩
  have normal : 0x10000000000000 ≤ x.significand := normal.resolve_right hleast
  by_cases habove : 2 ^ 52 * 2 ^ x.exponent ≤ q
  · exact .inl ⟨least, hbelow, .inl habove⟩
  right
  rw [not_le] at habove
  have smallest : x.significand = 0x10000000000000 := by
    by_contra hne
    have hm : (2 : ℚ) ^ 52 + 1 ≤ x.significand := by
      have : 0x10000000000000 + 1 ≤ x.significand := by omega
      exact_mod_cast this
    have hq : (x.quartersBelow : ℚ) ≤ 2 := by exact_mod_cast x.quartersBelow_le
    nlinarith
  have narrow : x.quartersBelow = 1 := by
    rw [quartersBelow, if_pos ⟨smallest, by omega⟩]
  have half : (2 : ℚ) ^ x.exponent = 2 * 2 ^ (x.exponent - 1) := by
    rw [← two_zpow_succ, sub_add_cancel]
  rw [smallest, narrow, half] at hlow
  rw [half] at habove
  push_cast at hlow
  refine ⟨smallest, by linarith, by omega, by linarith, .inl ?_⟩
  have hpos' := two_zpow_pos (x.exponent - 1)
  linarith

theorem nearestInteger_inUnits {num den r : Nat} (hden : 0 < den) {exponent : Int}
    (lower : ((r : ℚ) - 1 / 2) * 2 ^ exponent ≤ num / den)
    (upper : (num : ℚ) / den ≤ (r + 1 / 2) * 2 ^ exponent)
    (ends : r % 2 = 1 → ((r : ℚ) - 1 / 2) * 2 ^ exponent < num / den ∧
      (num : ℚ) / den < (r + 1 / 2) * 2 ^ exponent) :
    nearestInteger (inUnits num den exponent).1 (inUnits num den exponent).2 = r := by
  have hpos := two_zpow_pos exponent
  refine nearestInteger_eq (inUnits_den_pos hden num _) ?_ ?_ fun odd => ?_
  · rwa [inUnits_div num hden, le_div_iff₀ hpos]
  · rwa [inUnits_div num hden, div_le_iff₀ hpos]
  · rw [inUnits_div num hden, lt_div_iff₀ hpos, div_lt_iff₀ hpos]
    exact ends odd

/-- At the exponent of the double that attracts it a number rounds to the significand. -/
theorem Attracts.nearestInteger_inUnits {x : Binary64} {num den : Nat} (hden : 0 < den)
    (h : x.Attracts (num / den)) :
    nearestInteger (inUnits num den x.exponent).1 (inUnits num den x.exponent).2 =
      x.significand := by
  have hpos := two_zpow_pos x.exponent
  have hqb : (x.quartersBelow : ℚ) ≤ 2 := by exact_mod_cast x.quartersBelow_le
  obtain ⟨lower, upper, ends⟩ := h
  rw [low_eq] at lower ends
  rw [high_eq] at upper ends
  refine Binary64.nearestInteger_inUnits hden (by nlinarith) upper fun odd => ?_
  obtain ⟨strict, strict'⟩ := ends odd
  exact ⟨by nlinarith, strict'⟩

/-- Just below a power of two rounding goes up to it, as the power is even. -/
theorem nearestInteger_just_below {num den : Nat} (hden : 0 < den) {exponent : Int}
    (lower : (2 ^ 53 - 1 / 2) * 2 ^ exponent ≤ (num : ℚ) / den)
    (upper : (num : ℚ) / den < 2 ^ 53 * 2 ^ exponent) :
    nearestInteger (inUnits num den exponent).1 (inUnits num den exponent).2 =
      0x20000000000000 := by
  have hpos := two_zpow_pos exponent
  refine nearestInteger_inUnits hden ?_ ?_ fun odd => ?_
  · push_cast
    linarith
  · push_cast
    linarith
  · omega

/-- Rounding gives the double that attracts the quotient. -/
theorem ofQuotient?_of_attracts {x : Binary64} (nonzero : x.significand ≠ 0) {num den : Nat}
    (hden : 0 < den) (h : x.Attracts (num / den)) :
    ofQuotient? x.negative num den = some x := by
  have hq : (0 : ℚ) < num / den := (low_pos nonzero).trans_le h.lower
  have hnum : 0 < num := by
    by_contra hz
    rw [Nat.eq_zero_of_not_pos hz] at hq
    simp at hq
  have fits := fits_exponentFor hnum hden
  unfold ofQuotient?
  simp only
  rcases h.fits with same | ⟨smallest, just_below, finer⟩
  · rw [fits.unique same]
    have small := x.canonical.1
    rw [h.nearestInteger_inUnits hden, if_neg (by omega)]
    exact dif_pos x.canonical
  · rw [fits.unique finer, nearestInteger_just_below hden just_below finer.below, if_pos rfl]
    simp only [sub_add_cancel, ← smallest]
    exact dif_pos x.canonical

/-! ## Reading a decimal -/

theorem digits_bounds {digits : Nat} (h : digits ≠ 0) :
    10 ^ ((Nat.toDigits 10 digits).length - 1) ≤ digits ∧
      digits < 10 ^ (Nat.toDigits 10 digits).length := by
  have positive := Nat.length_toDigits_pos (b := 10) (n := digits)
  constructor
  · by_contra hlt
    by_cases hone : (Nat.toDigits 10 digits).length - 1 = 0
    · rw [hone] at hlt
      omega
    · have := (Nat.length_toDigits_le_iff (by decide) (by omega)).mpr (not_le.mp hlt)
      omega
  · exact (Nat.length_toDigits_le_iff (by decide) positive).mp le_rfl

theorem decimal_bounds {digits : Nat} (h : digits ≠ 0) (power : Int) :
    (10 : ℚ) ^ ((Nat.toDigits 10 digits).length + power - 1) ≤ digits * 10 ^ power ∧
      (digits : ℚ) * 10 ^ power < 10 ^ ((Nat.toDigits 10 digits).length + power) := by
  have positive := Nat.length_toDigits_pos (b := 10) (n := digits)
  obtain ⟨lower, upper⟩ := digits_bounds h
  have hpos : (0 : ℚ) < 10 ^ power := zpow_pos (by norm_num) power
  have lower' : (10 : ℚ) ^ (((Nat.toDigits 10 digits).length - 1 : Nat) : Int) ≤ digits := by
    exact_mod_cast lower
  have upper' : (digits : ℚ) < 10 ^ ((Nat.toDigits 10 digits).length : Int) := by
    exact_mod_cast upper
  constructor
  · have hexp : ((Nat.toDigits 10 digits).length : Int) + power - 1 =
        ((Nat.toDigits 10 digits).length - 1 : Nat) + power := by omega
    rw [hexp, zpow_add₀ (by norm_num)]
    exact mul_le_mul_of_nonneg_right lower' hpos.le
  · rw [zpow_add₀ (by norm_num)]
    exact mul_lt_mul_of_pos_right upper' hpos

/-- Every double other than zero attracts numbers of at least `2 ^ -1075` only. -/
theorem two_zpow_le_low {x : Binary64} (nonzero : x.significand ≠ 0) :
    (2 : ℚ) ^ (-1075 : Int) ≤ x.low := by
  obtain ⟨-, least, -, -⟩ := x.canonical
  have hm : (1 : ℚ) ≤ x.significand := by exact_mod_cast Nat.one_le_iff_ne_zero.mpr nonzero
  have hq : (x.quartersBelow : ℚ) ≤ 2 := by exact_mod_cast x.quartersBelow_le
  have hpow : (2 : ℚ) ^ (-1074 : Int) ≤ 2 ^ x.exponent := zpow_le_zpow_right₀ one_le_two least
  have half : (2 : ℚ) ^ (-1074 : Int) = 2 * 2 ^ (-1075 : Int) := by
    rw [← two_zpow_succ]
    rfl
  have hpos := two_zpow_pos x.exponent
  rw [low_eq]
  rw [half] at hpow
  nlinarith

theorem high_lt_two_pow (x : Binary64) : x.high < 2 ^ (1024 : Int) := by
  obtain ⟨-, -, greatest, -⟩ := x.canonical
  have hpow : (2 : ℚ) ^ x.exponent ≤ 2 ^ (971 : Int) := zpow_le_zpow_right₀ one_le_two greatest
  have split : (2 : ℚ) ^ (1024 : Int) = 2 ^ (53 : Int) * 2 ^ (971 : Int) :=
    zpow_add₀ two_ne_zero 53 971
  rw [split]
  exact x.high_lt.trans_le (mul_le_mul_of_nonneg_left hpow (by positivity))

theorem pow_lt_pow_of_parts {a b k l m n r s t : Nat} (parts : a ^ m < b ^ n)
    (rest : a ^ s < b ^ t) (some_part : r ≠ 0) (k_parts : k = m * r + s) (l_parts : l = n * r + t) :
    a ^ k < b ^ l := by
  rw [k_parts, l_parts, pow_add, pow_add, pow_mul, pow_mul]
  exact Nat.mul_lt_mul'' (Nat.pow_lt_pow_left parts some_part) rest

theorem ten_zpow_lt_two_zpow : (10 : ℚ) ^ (-324 : Int) < 2 ^ (-1075 : Int) := by
  have h : 2 ^ 1075 < 10 ^ 324 :=
    pow_lt_pow_of_parts (m := 93) (n := 28) (r := 11) (s := 52) (t := 16) (by norm_num)
      (by norm_num) (by decide) rfl rfl
  have h' : (2 : ℚ) ^ 1075 < 10 ^ 324 := by exact_mod_cast h
  exact inv_strictAnti₀ (pow_pos two_pos 1075) h'

theorem two_zpow_lt_ten_zpow : (2 : ℚ) ^ (1024 : Int) < 10 ^ (309 : Int) := by
  have h : 2 ^ 1024 < 10 ^ 309 :=
    pow_lt_pow_of_parts (m := 93) (n := 28) (r := 11) (s := 1) (t := 1) (by norm_num)
      (by norm_num) (by decide) rfl rfl
  exact_mod_cast h

/-- No double lies where the reader of decimals does without arithmetic. -/
theorem Attracts.magnitude {x : Binary64} (nonzero : x.significand ≠ 0) {digits : Nat}
    {power : Int} (h : x.Attracts (digits * 10 ^ power)) :
    digits ≠ 0 ∧ -324 < (Nat.toDigits 10 digits).length + power ∧
      (Nat.toDigits 10 digits).length + power ≤ 309 := by
  have hlow := (two_zpow_le_low nonzero).trans h.lower
  have hhigh := h.upper.trans_lt x.high_lt_two_pow
  have digits_nonzero : digits ≠ 0 := by
    rintro rfl
    have hpos := two_zpow_pos (-1075)
    simp only [Nat.cast_zero, zero_mul] at hlow
    linarith
  obtain ⟨lower, upper⟩ := decimal_bounds digits_nonzero power
  refine ⟨digits_nonzero, ?_, ?_⟩
  · by_contra hle
    have hpow : (10 : ℚ) ^ ((Nat.toDigits 10 digits).length + power) ≤ 10 ^ (-324 : Int) :=
      zpow_le_zpow_right₀ (by norm_num) (by omega)
    exact lt_irrefl _ ((hlow.trans_lt upper).trans_le (hpow.trans ten_zpow_lt_two_zpow.le))
  · by_contra hlt
    have hpow : (10 : ℚ) ^ (309 : Int) ≤ 10 ^ ((Nat.toDigits 10 digits).length + power - 1) :=
      zpow_le_zpow_right₀ (by norm_num) (by omega)
    exact lt_irrefl _ ((hpow.trans lower).trans_lt (hhigh.trans two_zpow_lt_ten_zpow))

/-! ## The error of a rounding -/

def size (x : Binary64) : ℚ := x.significand * 2 ^ x.exponent

theorem attracts_size (x : Binary64) : x.Attracts x.size := by
  have hpos := two_zpow_pos x.exponent
  have hq : (1 : ℚ) ≤ x.quartersBelow := by exact_mod_cast x.quartersBelow_pos
  have lower : x.low < x.size := by
    rw [size, low_eq]
    nlinarith
  have upper : x.size < x.high := by
    rw [size, high_eq]
    nlinarith
  exact ⟨lower.le, upper.le, fun _ => ⟨lower, upper⟩⟩

/-- The numbers from here on are too large for a finite double. -/
def limit : ℚ := (2 ^ 53 - 1 / 2) * 2 ^ (971 : Int)

/-- A double is as close to a number as rounding brings it. -/
def Near (x : Binary64) (q : ℚ) : Prop := |x.size - q| ≤ max (q / 2 ^ 53) (2 ^ (-1075 : Int))

theorem nearestInteger_bounds (num den : Nat) :
    num / den ≤ nearestInteger num den ∧ nearestInteger num den ≤ num / den + 1 := by
  unfold nearestInteger
  simp only
  split <;> omega

theorem abs_nearestInteger_sub_le (num : Nat) {den : Nat} (hden : 0 < den) :
    |(nearestInteger num den : ℚ) - num / den| ≤ 1 / 2 := by
  have split := Nat.div_add_mod num den
  have hrem := Nat.mod_lt num hden
  have hd : (0 : ℚ) < den := by exact_mod_cast hden
  have bounds : 2 * num ≤ 2 * (nearestInteger num den * den) + den ∧
      2 * (nearestInteger num den * den) ≤ 2 * num + den := by
    unfold nearestInteger
    simp only
    generalize num / den = below at *
    generalize num % den = rem at *
    subst split
    split
    next near =>
      have half : 2 * rem ≤ den := by omega
      constructor <;> linarith
    next far =>
      have half : den ≤ 2 * rem := by omega
      constructor <;> linarith
  have lower : (2 * num : ℚ) ≤ 2 * (nearestInteger num den * den) + den := by
    exact_mod_cast bounds.1
  have upper : (2 * (nearestInteger num den * den) : ℚ) ≤ 2 * num + den := by
    exact_mod_cast bounds.2
  have scaled : (nearestInteger num den : ℚ) - num / den =
      (nearestInteger num den * den - num) / den := by
    field_simp
  rw [scaled, abs_le, le_div_iff₀ hd, div_le_iff₀ hd]
  constructor <;> linarith

theorem Fits.exponent_le {exponent : Int} {q : ℚ} (h : Fits exponent q) (small : q < limit) :
    exponent ≤ 971 := by
  rcases h.above with above | rfl
  · by_contra hgt
    have hpow : (2 : ℚ) ^ (971 + 1 : Int) ≤ 2 ^ exponent := zpow_le_zpow_right₀ one_le_two (by omega)
    have hpos := two_zpow_pos 971
    rw [two_zpow_succ] at hpow
    unfold limit at small
    generalize (2 : ℚ) ^ (971 : Int) = greatest at *
    linarith
  · decide

theorem Fits.near {exponent : Int} {q rounded : ℚ} (h : Fits exponent q)
    (close : |rounded - q / 2 ^ exponent| ≤ 1 / 2) :
    |rounded * 2 ^ exponent - q| ≤ max (q / 2 ^ 53) (2 ^ (-1075 : Int)) := by
  have hpos := two_zpow_pos exponent
  have scaled : rounded * 2 ^ exponent - q = (rounded - q / 2 ^ exponent) * 2 ^ exponent := by
    field_simp
  have half : |rounded * 2 ^ exponent - q| ≤ 1 / 2 * 2 ^ exponent := by
    rw [scaled, abs_mul, abs_of_pos hpos]
    exact mul_le_mul_of_nonneg_right close hpos.le
  rcases h.above with above | rfl
  · refine half.trans (le_max_of_le_left ?_)
    rw [le_div_iff₀ (by norm_num)]
    linarith
  · refine half.trans (le_max_of_le_right (le_of_eq ?_))
    rw [show (-1074 : Int) = -1075 + 1 by rfl, two_zpow_succ]
    ring

/-- A carry at the greatest exponent would come from a number that is too large. -/
theorem Fits.exponent_lt_of_carried {exponent : Int} {q : ℚ} (h : Fits exponent q)
    (small : q < limit) (carried : |(2 : ℚ) ^ 53 - q / 2 ^ exponent| ≤ 1 / 2) : exponent < 971 := by
  refine lt_of_le_of_ne (h.exponent_le small) ?_
  rintro rfl
  have lt : q / 2 ^ (971 : Int) < 2 ^ 53 - 1 / 2 := (div_lt_iff₀ (two_zpow_pos 971)).mpr small
  have above := (abs_le.mp carried).2
  linarith

/-- A number that is not too large rounds to a double close to it. -/
theorem exists_ofQuotient? (negative : Bool) {num den : Nat} (hnum : 0 < num) (hden : 0 < den)
    (small : (num : ℚ) / den < limit) :
    ∃ x, ofQuotient? negative num den = some x ∧ x.Near (num / den) := by
  have fits := fits_exponentFor hnum hden
  unfold ofQuotient?
  simp only
  generalize exponentFor num den = exponent at *
  have least := fits.least
  have greatest := fits.exponent_le small
  have close := abs_nearestInteger_sub_le (inUnits num den exponent).1
    (inUnits_den_pos hden num exponent)
  rw [inUnits_div num hden] at close
  have whole_lt : (inUnits num den exponent).1 / (inUnits num den exponent).2 <
      0x20000000000000 := by
    rw [inUnits_div_lt_iff num hden]
    exact_mod_cast fits.below
  have normal : 0x10000000000000 ≤ (inUnits num den exponent).1 / (inUnits num den exponent).2 ∨
      exponent = -1074 := by
    refine fits.above.imp_left fun above => ?_
    rw [← not_lt, inUnits_div_lt_iff num hden, not_lt]
    exact_mod_cast above
  obtain ⟨rounded_above, rounded_below⟩ := nearestInteger_bounds (inUnits num den exponent).1
    (inUnits num den exponent).2
  generalize nearestInteger (inUnits num den exponent).1 (inUnits num den exponent).2 = rounded at *
  have near := fits.near close
  split
  next carried =>
    have inside : exponent < 971 := by
      rw [carried] at close
      exact fits.exponent_lt_of_carried small (by exact_mod_cast close)
    rw [dif_pos ⟨by norm_num, by omega, by omega, .inl (by norm_num)⟩]
    refine ⟨_, rfl, ?_⟩
    have same : ((0x10000000000000 : Nat) : ℚ) * 2 ^ (exponent + 1) = rounded * 2 ^ exponent := by
      rw [carried, two_zpow_succ]
      push_cast
      ring
    simpa only [Near, size, same] using near
  next =>
    rw [dif_pos ⟨by omega, by omega, by omega, by omega⟩]
    exact ⟨_, rfl, near⟩

end GameCatalog.Binary64
