import GameCatalog.Binary64.Scaling
import GameCatalog.Proofs.Binary64.Rounding

/-!
# Decimals read by steps

Each step of reading a decimal is off by half a unit of the last place at most, and there are three of
them. So decimals a little below the greatest double are read as some double. A decimal with few
digits is read as the nearest one, since its significand and the power of ten are doubles themselves.
-/

namespace GameCatalog.Binary64

/-! ## Sizes -/

theorem quotient_den_pos (x : Binary64) : 0 < x.quotient.2 := Nat.pow_pos two_pos

theorem quotient_div (x : Binary64) : (x.quotient.1 : ℚ) / x.quotient.2 = x.size := by
  have hpow := zpow_mul_pow_toNat (two_ne_zero : (2 : ℚ) ≠ 0) x.exponent
  have hnat : (2 : ℚ) ^ (-x.exponent).toNat ≠ 0 := by positivity
  simp only [quotient, Nat.pow_eq, Nat.cast_mul, Nat.cast_pow, Nat.cast_ofNat]
  rw [size, div_eq_iff hnat, mul_assoc, hpow]

theorem size_nonneg (x : Binary64) : 0 ≤ x.size :=
  mul_nonneg (Nat.cast_nonneg _) (two_zpow_pos _).le

theorem significand_ne_zero_of_size {x : Binary64} (h : 0 < x.size) : x.significand ≠ 0 := by
  intro zero
  rw [size, zero, Nat.cast_zero, zero_mul] at h
  exact lt_irrefl _ h

theorem quotient_num_pos {x : Binary64} (nonzero : x.significand ≠ 0) : 0 < x.quotient.1 :=
  Nat.mul_pos (Nat.pos_of_ne_zero nonzero) (Nat.pow_pos two_pos)

/-! ## Close doubles -/

section Near

variable {x : Binary64} {q : ℚ}

theorem Near.le (h : x.Near q) (nonneg : 0 ≤ q) : x.size ≤ 2 * q + 1 := by
  have above := (abs_le.mp h).2
  have tiny : (2 : ℚ) ^ (-1075 : Int) ≤ 1 := zpow_le_one_of_nonpos₀ one_le_two (by decide)
  have part : q / 2 ^ 53 ≤ q := div_le_self nonneg (by norm_num)
  have bound := above.trans (max_le (part.trans (le_add_of_nonneg_right zero_le_one))
    (tiny.trans (le_add_of_nonneg_left nonneg)))
  linarith

/-- From one on, rounding changes a number by a fraction of it. -/
theorem Near.bounds (h : x.Near q) (large : 1 ≤ q) :
    q * (1 - 1 / 2 ^ 53) ≤ x.size ∧ x.size ≤ q * (1 + 1 / 2 ^ 53) := by
  have tiny : (2 : ℚ) ^ (-1075 : Int) ≤ q / 2 ^ 53 := by
    have part : (2 : ℚ) ^ (-1075 : Int) ≤ 2 ^ (-53 : Int) :=
      zpow_le_zpow_right₀ one_le_two (by decide)
    have unit : (2 : ℚ) ^ (-53 : Int) = 1 / 2 ^ 53 := by norm_num
    rw [unit] at part
    exact part.trans (div_le_div_of_nonneg_right large (by norm_num))
  rw [Near, max_eq_left tiny, abs_le] at h
  constructor <;> linarith [h.1, h.2]

end Near

/-! ## Operations -/

theorem exists_nearest? {num den : Nat} (hden : 0 < den) (small : (num : ℚ) / den < limit) :
    ∃ x, nearest? num den = some x ∧ x.Near (num / den) := by
  unfold nearest?
  split
  next none =>
    refine ⟨zero false, rfl, ?_⟩
    have size_eq : (zero false).size = 0 := by simp [size, zero]
    rw [Near, size_eq, none, Nat.cast_zero, zero_div, sub_zero, abs_zero]
    exact le_max_of_le_left (by norm_num)
  next some => exact exists_ofQuotient? false (Nat.pos_of_ne_zero some) hden small

theorem exists_times? {x y : Binary64} (small : x.size * y.size < limit) :
    ∃ z, x.times? y = some z := by
  have product : ((x.quotient.1 * y.quotient.1 : Nat) : ℚ) / (x.quotient.2 * y.quotient.2 : Nat) =
      x.size * y.size := by
    rw [Nat.cast_mul, Nat.cast_mul, mul_div_mul_comm, quotient_div, quotient_div]
  obtain ⟨z, hz, -⟩ := exists_nearest?
    (Nat.mul_pos x.quotient_den_pos y.quotient_den_pos) (product ▸ small)
  exact ⟨z, hz⟩

theorem over_quotient (x y : Binary64) :
    ((x.quotient.1 * y.quotient.2 : Nat) : ℚ) / (x.quotient.2 * y.quotient.1 : Nat) =
      x.size / y.size := by
  rw [← quotient_div x, ← quotient_div y, Nat.cast_mul, Nat.cast_mul, div_div_div_eq]

theorem exists_over? {x y : Binary64} (nonzero : y.significand ≠ 0)
    (small : x.size / y.size < limit) :
    ∃ z, x.over? y = some z ∧ z.Near (x.size / y.size) := by
  obtain ⟨z, hz, near⟩ := exists_nearest?
    (Nat.mul_pos x.quotient_den_pos (quotient_num_pos nonzero)) (over_quotient x y ▸ small)
  exact ⟨z, hz, over_quotient x y ▸ near⟩

/-! ## Powers of ten -/

theorem ten_pow_lt_limit : (10 : ℚ) ^ 308 < limit := by
  have h : 2 * 10 ^ 308 + 2 ^ 971 < 2 ^ 54 * 2 ^ 971 := by decide +kernel
  have h' : (2 : ℚ) * 10 ^ 308 + 2 ^ 971 < 2 ^ 54 * 2 ^ 971 := by exact_mod_cast h
  rw [limit, zpow_ofNat]
  generalize (10 : ℚ) ^ 308 = ten at *
  generalize (2 : ℚ) ^ 971 = two at *
  linarith

theorem exists_powerOfTen? {power : Nat} (h : power ≤ greatestPower) :
    ∃ t, powerOfTen? power = some t ∧ 10 ^ power * (1 - 1 / 2 ^ 53) ≤ t.size ∧
      t.size ≤ 10 ^ power * (1 + 1 / 2 ^ 53) := by
  have value : ((Nat.pow 10 power : Nat) : ℚ) / (1 : Nat) = 10 ^ power := by simp
  have le : (10 : ℚ) ^ power ≤ 10 ^ 308 := pow_le_pow_right₀ (by norm_num) h
  obtain ⟨t, ht, near⟩ := exists_nearest? Nat.one_pos (value ▸ le.trans_lt ten_pow_lt_limit)
  rw [value] at near
  exact ⟨t, ht, near.bounds (one_le_pow₀ (by norm_num))⟩

theorem two_pow_lt_limit : (2 : ℚ) ^ 67 < limit := by
  have le : (2 : ℚ) ^ 67 ≤ 2 ^ (971 : Int) := by
    exact_mod_cast zpow_le_zpow_right₀ (one_le_two (α := ℚ)) (show (67 : Int) ≤ 971 by decide)
  have hpos := two_zpow_pos 971
  unfold limit
  generalize (2 : ℚ) ^ (971 : Int) = unit at *
  linarith

theorem exists_lowered? {steps power : Nat} {x : Binary64} (h : power ≤ greatestPower)
    (small : x.size ≤ 2 ^ 66) : ∃ y, lowered? steps power x = some y := by
  induction steps generalizing x with
  | zero =>
      obtain ⟨t, ht, lower, -⟩ := exists_powerOfTen? h
      have one_le : (1 : ℚ) ≤ 10 ^ power := one_le_pow₀ (by norm_num)
      have half : 1 / 2 ≤ t.size := by linarith
      have quotient_le : x.size / t.size ≤ 2 ^ 67 := by
        rw [div_le_iff₀ (by linarith)]
        linarith
      obtain ⟨y, hy, -⟩ := exists_over? (significand_ne_zero_of_size (by linarith))
        (quotient_le.trans_lt two_pow_lt_limit)
      exact ⟨y, by simp [lowered?, ht, hy]⟩
  | succ steps ih =>
      rw [lowered?]
      split
      · exact ⟨x, rfl⟩
      · obtain ⟨t, ht, lower, -⟩ := exists_powerOfTen? (le_refl greatestPower)
        have ten_le : (10 : ℚ) ^ 1 ≤ 10 ^ greatestPower :=
          pow_le_pow_right₀ (by norm_num) (by decide)
        have four_le : 4 ≤ t.size := by linarith
        have quotient_le : x.size / t.size ≤ 2 ^ 64 := by
          rw [div_le_iff₀ (by linarith)]
          linarith
        obtain ⟨y, hy, near⟩ := exists_over? (significand_ne_zero_of_size (by linarith))
          (quotient_le.trans_lt (two_pow_lt_limit.trans' (by norm_num)))
        obtain ⟨z, hz⟩ := ih ((near.le (div_nonneg x.size_nonneg t.size_nonneg)).trans
          (by linarith))
        exact ⟨z, by simp [ht, hy, hz]⟩

/-- Below this number no step of reading leaves the range of the doubles. -/
def safeLimit : ℚ := (2 ^ 53 - 7 / 2) * 2 ^ (971 : Int)

theorem le_greatestPower {significand : Nat} {power : Int} (nonzero : significand ≠ 0)
    (small : (significand : ℚ) * 10 ^ power ≤ safeLimit) : power ≤ greatestPower := by
  by_contra hgt
  have one_le : (1 : ℚ) ≤ significand := by exact_mod_cast Nat.one_le_iff_ne_zero.mpr nonzero
  have hpow : (10 : ℚ) ^ (309 : Int) ≤ 10 ^ power :=
    zpow_le_zpow_right₀ (by norm_num) (by unfold greatestPower at hgt; omega)
  have hpos : (0 : ℚ) < 10 ^ power := zpow_pos (by norm_num) power
  have large : (10 : ℚ) ^ (309 : Int) ≤ safeLimit :=
    (hpow.trans (le_mul_of_one_le_left hpos.le one_le)).trans small
  have limit_lt : safeLimit < 2 ^ (1024 : Int) := by
    have split : (2 : ℚ) ^ (1024 : Int) = 2 ^ (53 : Int) * 2 ^ (971 : Int) :=
      zpow_add₀ two_ne_zero 53 971
    rw [safeLimit, split]
    exact mul_lt_mul_of_pos_right (by norm_num) (two_zpow_pos 971)
  exact lt_irrefl _ ((large.trans_lt limit_lt).trans two_zpow_lt_ten_zpow)

theorem safeLimit_mul_lt : safeLimit * (1 + 1 / 2 ^ 53) ^ 2 < limit := by
  have scaled := mul_lt_mul_of_pos_right
    (show (2 ^ 53 - 7 / 2 : ℚ) * (1 + 1 / 2 ^ 53) ^ 2 < 2 ^ 53 - 1 / 2 by norm_num)
    (two_zpow_pos 971)
  rwa [safeLimit, limit, mul_right_comm]

/-- The significand, the power of ten and their product are rounded, each by a fraction at most. -/
theorem product_lt_limit {x t : Binary64} {significand power : Nat} (near : x.Near significand)
    (nonzero : significand ≠ 0) (upper : t.size ≤ 10 ^ power * (1 + 1 / 2 ^ 53))
    (small : (significand : ℚ) * 10 ^ power ≤ safeLimit) : x.size * t.size < limit := by
  have one_le : (1 : ℚ) ≤ significand := by exact_mod_cast Nat.one_le_iff_ne_zero.mpr nonzero
  calc x.size * t.size
      ≤ significand * (1 + 1 / 2 ^ 53) * (10 ^ power * (1 + 1 / 2 ^ 53)) :=
        mul_le_mul (near.bounds one_le).2 upper t.size_nonneg (by positivity)
    _ = significand * 10 ^ power * (1 + 1 / 2 ^ 53) ^ 2 := by ring
    _ ≤ safeLimit * (1 + 1 / 2 ^ 53) ^ 2 := mul_le_mul_of_nonneg_right small (by positivity)
    _ < limit := safeLimit_mul_lt

theorem exists_ofParts? {significand : Nat} {power : Int} (wide : significand < 2 ^ 64)
    (small : (significand : ℚ) * 10 ^ power ≤ safeLimit) :
    ∃ x, ofParts? significand power = some x := by
  have wide' : (significand : ℚ) / (1 : Nat) < 2 ^ 64 := by
    rw [Nat.cast_one, div_one]
    exact_mod_cast wide
  obtain ⟨x, hx, near⟩ := exists_nearest? Nat.one_pos
    (wide'.trans (two_pow_lt_limit.trans' (by norm_num)))
  rw [Nat.cast_one, div_one] at near wide'
  rw [ofParts?, hx, Option.bind_eq_bind, Option.bind_some]
  split
  next nonneg =>
    obtain ⟨n, rfl⟩ := Int.eq_ofNat_of_zero_le nonneg
    split
    next le =>
      obtain ⟨t, ht, -, upper⟩ := exists_powerOfTen? (show n ≤ greatestPower by omega)
      have product_lt : x.size * t.size < limit := by
        by_cases zero : significand = 0
        · have size_eq : x.size = 0 := by
            rw [zero] at hx
            cases hx
            simp [size, Binary64.zero]
          rw [size_eq, zero_mul]
          exact two_pow_lt_limit.trans' (by norm_num)
        · rw [zpow_natCast] at small
          exact product_lt_limit near zero upper small
      obtain ⟨y, hy⟩ := exists_times? product_lt
      exact ⟨y, by simp [ht, hy]⟩
    next gt =>
      rw [if_pos]
      · exact ⟨x, rfl⟩
      · by_contra nonzero
        exact gt (le_greatestPower nonzero small)
  next negative =>
    refine exists_lowered? ?_ ((near.le (Nat.cast_nonneg _)).trans (by linarith))
    unfold greatestPower
    omega

/-! ## Exact steps -/

/-- A number with 53 bits before its zeros is the size of a double. -/
theorem exists_size {m : Nat} (pos : 0 < m) (small : m < 2 ^ 53) {zeros : Nat} (few : zeros ≤ 900) :
    ∃ x : Binary64, x.negative = false ∧ x.significand ≠ 0 ∧ x.size = (m * 2 ^ zeros : Nat) := by
  have log_le : m.log2 ≤ 52 := by
    have := (Nat.log2_lt pos.ne').mpr small
    omega
  have le := Nat.log2_self_le pos.ne'
  have lt : m < 2 ^ (m.log2 + 1) := Nat.lt_log2_self
  have bits : 2 ^ m.log2 * 2 ^ (52 - m.log2) = 2 ^ 52 := by
    rw [← Nat.pow_add]
    congr 1
    omega
  have above : 2 ^ 52 ≤ m * 2 ^ (52 - m.log2) := bits ▸ Nat.mul_le_mul_right _ le
  have below : m * 2 ^ (52 - m.log2) < 2 ^ 53 := by
    have scaled := Nat.mul_lt_mul_of_pos_right lt (Nat.pow_pos (n := 52 - m.log2) two_pos)
    rw [Nat.pow_succ, Nat.mul_right_comm, bits] at scaled
    exact scaled
  refine ⟨⟨false, m * 2 ^ (52 - m.log2), zeros - (52 - m.log2 : Nat),
    below, by omega, by omega, .inl above⟩, rfl, (by positivity : 0 < _).ne', ?_⟩
  simp only [size, Nat.cast_mul, Nat.cast_pow, Nat.cast_ofNat]
  rw [zpow_sub₀ two_ne_zero, zpow_natCast, zpow_natCast]
  field_simp

theorem nearest?_of_attracts {x : Binary64} (positive : x.negative = false)
    (nonzero : x.significand ≠ 0) {num den : Nat} (hden : 0 < den) (h : x.Attracts (num / den)) :
    nearest? num den = some x := by
  have found := ofQuotient?_of_attracts nonzero hden h
  have num_ne : num ≠ 0 := by
    rintro rfl
    have lower := h.lower
    rw [Nat.cast_zero, zero_div] at lower
    exact lower.not_gt (low_pos nonzero)
  rw [nearest?, if_neg num_ne, ← found, positive]

theorem exists_nearest?_of_bits {m : Nat} (pos : 0 < m) (small : m < 2 ^ 53) {zeros : Nat}
    (few : zeros ≤ 900) :
    ∃ x, nearest? (m * 2 ^ zeros) 1 = some x ∧ x.size = (m * 2 ^ zeros : Nat) ∧
      x.significand ≠ 0 := by
  obtain ⟨x, positive, nonzero, size_eq⟩ := exists_size pos small few
  refine ⟨x, nearest?_of_attracts positive nonzero Nat.one_pos ?_, size_eq, nonzero⟩
  rw [Nat.cast_one, div_one, ← size_eq]
  exact x.attracts_size

/-- A decimal with few digits after the point is read as the double that attracts it. -/
theorem ofParts?_of_attracts {x : Binary64} (positive : x.negative = false)
    (nonzero : x.significand ≠ 0) {significand power : Nat} (small : significand < 2 ^ 53)
    (some_power : 1 ≤ power) (few : power ≤ 22)
    (h : x.Attracts (significand * 10 ^ (-power : Int))) :
    ofParts? significand (-power) = some x := by
  have significand_pos : 0 < significand := by
    by_contra zero
    have lower := h.lower
    rw [Nat.eq_zero_of_not_pos zero, Nat.cast_zero, zero_mul] at lower
    exact lower.not_gt (low_pos nonzero)
  have five_lt : 5 ^ power < 2 ^ 53 :=
    (Nat.pow_le_pow_right (by decide) few).trans_lt (by decide)
  obtain ⟨y, hy, y_size, -⟩ :=
    exists_nearest?_of_bits significand_pos small (show 0 ≤ 900 by decide)
  obtain ⟨t, ht, t_size, t_nonzero⟩ :=
    exists_nearest?_of_bits (Nat.pow_pos (show 0 < 5 by decide)) five_lt (show power ≤ 900 by omega)
  rw [← Nat.mul_pow] at ht t_size
  rw [pow_zero, mul_one] at hy y_size
  have read : ofParts? significand (-power) = y.over? t := by
    have steps : (power - 1) / greatestPower = 0 := Nat.div_eq_of_lt (by unfold greatestPower; omega)
    have ten : powerOfTen? power = some t := ht
    simp [ofParts?, hy, show ¬power = 0 by omega, steps, lowered?, ten]
  have quotient : (((y.quotient.1 * t.quotient.2 : Nat) : ℚ) /
      (y.quotient.2 * t.quotient.1 : Nat)) = significand * 10 ^ (-power : Int) := by
    rw [over_quotient, y_size, t_size, zpow_neg, zpow_natCast]
    push_cast
    rfl
  rw [read, over?]
  exact nearest?_of_attracts positive nonzero
    (Nat.mul_pos y.quotient_den_pos (quotient_num_pos t_nonzero)) (quotient ▸ h)

end GameCatalog.Binary64
