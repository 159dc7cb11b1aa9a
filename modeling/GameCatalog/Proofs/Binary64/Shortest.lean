import GameCatalog.Proofs.Binary64.Rounding

/-!
# Shortest decimals

Whatever grid the shortest decimal is found on, and whichever of two points is taken there, the
double attracts it. So it reads back as that double, also where no grid has a point and the exact
value is written.
-/

namespace GameCatalog

def Decimal.value (decimal : Decimal) : ℚ := decimal.digits * 10 ^ decimal.power

namespace Binary64

section Grid

variable {x : Binary64} {power : Int}

/-- A unit of the last place and a step of the grid, in the common measure in which both are
natural numbers. -/
theorem grid_mul_two_zpow (quarter power : Int) :
    ((Nat.pow 2 (-quarter).toNat * Nat.pow 10 power.toNat : Nat) : ℚ) * 2 ^ quarter =
      10 ^ power * (Nat.pow 2 quarter.toNat * Nat.pow 10 (-power).toNat : Nat) := by
  have two := zpow_mul_pow_toNat (two_ne_zero : (2 : ℚ) ≠ 0) quarter
  have ten := zpow_mul_pow_toNat (show (10 : ℚ) ≠ 0 by norm_num) power
  simp only [Nat.pow_eq, Nat.cast_mul, Nat.cast_pow, Nat.cast_ofNat]
  rw [← two, ← ten]
  ring

theorem cast_low {x : Binary64} (nonzero : x.significand ≠ 0) :
    ((4 * x.significand - x.quartersBelow : Nat) : ℚ) = 4 * x.significand - x.quartersBelow := by
  have hle := x.quartersBelow_le
  rw [Nat.cast_sub (by omega)]
  push_cast
  rfl

theorem attracts_of_grid (nonzero : x.significand ≠ 0) {point unit grid : Nat}
    (hunit : 0 < unit) (measure : (grid : ℚ) * 2 ^ (x.exponent - 2) = 10 ^ power * unit)
    (lower : (4 * x.significand - x.quartersBelow) * unit < point * grid ∨
      (x.significand % 2 = 0 ∧ (4 * x.significand - x.quartersBelow) * unit = point * grid))
    (upper : point * grid < (4 * x.significand + 2) * unit ∨
      (x.significand % 2 = 0 ∧ point * grid = (4 * x.significand + 2) * unit)) :
    x.Attracts (point * 10 ^ power) := by
  have hu : (0 : ℚ) < unit := by exact_mod_cast hunit
  have hpos := two_zpow_pos (x.exponent - 2)
  have scaled : (point : ℚ) * 10 ^ power * unit = (point * grid : Nat) * 2 ^ (x.exponent - 2) := by
    push_cast
    rw [mul_assoc (point : ℚ) (grid : ℚ), measure]
    ring
  have low_scaled : x.low * unit =
      ((4 * x.significand - x.quartersBelow) * unit : Nat) * 2 ^ (x.exponent - 2) := by
    rw [Nat.cast_mul, cast_low nonzero, low]
    ring
  have high_scaled : x.high * unit =
      ((4 * x.significand + 2) * unit : Nat) * 2 ^ (x.exponent - 2) := by
    rw [high]
    push_cast
    ring
  refine ⟨?_, ?_, fun odd => ⟨?_, ?_⟩⟩
  · rw [← mul_le_mul_iff_left₀ hu, scaled, low_scaled, mul_le_mul_iff_left₀ hpos]
    exact_mod_cast lower.elim Nat.le_of_lt fun h => h.2.le
  · rw [← mul_le_mul_iff_left₀ hu, scaled, high_scaled, mul_le_mul_iff_left₀ hpos]
    exact_mod_cast upper.elim Nat.le_of_lt fun h => h.2.le
  · rw [← mul_lt_mul_iff_left₀ hu, scaled, low_scaled, mul_lt_mul_iff_left₀ hpos]
    exact_mod_cast lower.elim id fun h => by omega
  · rw [← mul_lt_mul_iff_left₀ hu, scaled, high_scaled, mul_lt_mul_iff_left₀ hpos]
    exact_mod_cast upper.elim id fun h => by omega

theorem attracts_of_gridPoint? (nonzero : x.significand ≠ 0) {tie : Tie} {point : Nat}
    (h : x.gridPoint? tie power = some point) : x.Attracts (point * 10 ^ power) := by
  have measure := grid_mul_two_zpow (x.exponent - 2) power
  have hunit : 0 < Nat.pow 2 (x.exponent - 2).toNat * Nat.pow 10 (-power).toNat :=
    Nat.mul_pos (Nat.pow_pos (by decide)) (Nat.pow_pos (by decide))
  have hgrid : 0 < Nat.pow 2 (-(x.exponent - 2)).toNat * Nat.pow 10 power.toNat :=
    Nat.mul_pos (Nat.pow_pos (by decide)) (Nat.pow_pos (by decide))
  unfold gridPoint? at h
  simp only at h
  generalize Nat.pow 2 (x.exponent - 2).toNat * Nat.pow 10 (-power).toNat = unit at *
  generalize Nat.pow 2 (-(x.exponent - 2)).toNat * Nat.pow 10 power.toNat = grid at *
  have below_le := Nat.div_mul_le_self (4 * x.significand * unit) grid
  have lt_above := Nat.lt_mul_div_succ (4 * x.significand * unit) hgrid
  rw [mul_comm grid] at lt_above
  generalize 4 * x.significand * unit / grid = below at *
  have low_le : (4 * x.significand - x.quartersBelow) * unit ≤ 4 * x.significand * unit :=
    Nat.mul_le_mul_right unit (Nat.sub_le _ _)
  have lt_high : 4 * x.significand * unit < (4 * x.significand + 2) * unit :=
    Nat.mul_lt_mul_of_pos_right (by omega) hunit
  have attracts_below
      (fits : (decide ((4 * x.significand - x.quartersBelow) * unit < below * grid) ||
        x.significand % 2 == 0 &&
          (4 * x.significand - x.quartersBelow) * unit == below * grid) = true) :
      x.Attracts (below * 10 ^ power) := by
    refine attracts_of_grid nonzero hunit measure ?_ (.inl (below_le.trans_lt lt_high))
    simpa using fits
  have attracts_above (fits : (decide ((below + 1) * grid < (4 * x.significand + 2) * unit) ||
      x.significand % 2 == 0 &&
        (4 * x.significand + 2) * unit == (below + 1) * grid) = true) :
      x.Attracts ((below + 1 : Nat) * 10 ^ power) := by
    refine attracts_of_grid nonzero hunit measure (.inl (low_le.trans_lt lt_above)) ?_
    simp only [Bool.or_eq_true, decide_eq_true_eq, Bool.and_eq_true, beq_iff_eq] at fits
    exact fits.imp_right fun ends => ⟨ends.1, ends.2.symm⟩
  split at h
  next both =>
    rw [Bool.and_eq_true] at both
    split at h
    · exact Option.some.inj h ▸ attracts_below both.1
    · exact Option.some.inj h ▸ attracts_above both.2
  · split at h
    next fits => exact Option.some.inj h ▸ attracts_below fits
    · split at h
      next fits => exact Option.some.inj h ▸ attracts_above fits
      · cases h

theorem attracts_exactDecimal (x : Binary64) : x.Attracts x.exactDecimal.value := by
  have exact_value : x.exactDecimal.value = x.size := by
    unfold exactDecimal Decimal.value size
    split
    next hneg =>
      have ten : (10 : ℚ) ^ x.exponent = 5 ^ x.exponent * 2 ^ x.exponent := by
        rw [← mul_zpow]
        norm_num
      have five := zpow_mul_pow_toNat (show (5 : ℚ) ≠ 0 by norm_num) x.exponent
      have none : x.exponent.toNat = 0 := by omega
      rw [none, pow_zero] at five
      simp only [Nat.pow_eq, Nat.cast_mul, Nat.cast_pow, Nat.cast_ofNat]
      rw [ten, mul_assoc, ← mul_assoc (5 ^ _) (5 ^ _), mul_comm (5 ^ _) (5 ^ x.exponent), five,
        one_mul]
    next hpos =>
      have two := zpow_mul_pow_toNat (two_ne_zero : (2 : ℚ) ≠ 0) x.exponent
      have none : (-x.exponent).toNat = 0 := by omega
      rw [none, pow_zero, mul_one] at two
      simp only [Nat.pow_eq, Nat.cast_mul, Nat.cast_pow, Nat.cast_ofNat, zpow_zero, mul_one]
      rw [two]
  exact exact_value ▸ x.attracts_size

end Grid

/-- The shortest decimal of a double rounds to it. -/
theorem attracts_shortest {x : Binary64} (nonzero : x.significand ≠ 0) (tie : Tie) :
    x.Attracts (x.shortest tie).value := by
  unfold shortest
  generalize hfound : ((List.range 20).findSome? fun (i : Nat) =>
    (x.gridPoint? tie (x.powerAbove - (i : Int))).map fun digits =>
      Decimal.mk digits (x.powerAbove - (i : Int))) = found
  cases found with
  | none => exact x.attracts_exactDecimal
  | some decimal =>
      obtain ⟨i, -, hi⟩ := List.exists_of_findSome?_eq_some hfound
      obtain ⟨point, hpoint, rfl⟩ := Option.map_eq_some_iff.mp hi
      exact attracts_of_gridPoint? nonzero hpoint

end Binary64

end GameCatalog
