import GameCatalog.Proofs.Binary64.Scaling
import GameCatalog.Proofs.Json.NumeralText

/-!
# What numerals are read as

A numeral stands for a decimal. Its digits are gathered into a number of 64 bits, and those that do
not fit are left out, so what is read is no greater; a decimal that is not close to the end of the
doubles is read as some double. One with few digits is read as the double nearest to it.
-/

namespace GameCatalog.Json

namespace Numeral

/-! ## Digits -/

theorem digit_lt {c : Char} (h : c.isDigit = true) : c.toNat - '0'.toNat < 10 := by
  simp only [Char.isDigit, Bool.and_eq_true, decide_eq_true_eq] at h
  have upper : c.val.toNat ≤ 57 := UInt32.le_iff_toNat_le.mp h.2
  show c.val.toNat - 48 < 10
  omega

theorem ofDigitChars_lt {digits : List Char} (h : ∀ c ∈ digits, c.isDigit = true) (start : Nat) :
    Nat.ofDigitChars 10 digits start < 10 ^ digits.length * (start + 1) := by
  induction digits generalizing start with
  | nil => simp
  | cons c rest ih =>
      have digit := digit_lt (h c List.mem_cons_self)
      have later :=
        ih (fun d hd => h d (List.mem_cons_of_mem _ hd)) (10 * start + (c.toNat - '0'.toNat))
      rw [Nat.ofDigitChars_cons, List.length_cons, pow_succ, mul_assoc]
      exact later.trans_le (Nat.mul_le_mul_left _ (by omega))

theorem natural_lt {digits : List Char} (h : ∀ c ∈ digits, c.isDigit = true) :
    natural digits < 10 ^ digits.length := by
  simpa [natural] using ofDigitChars_lt h 0

theorem natural_append (digits more : List Char) :
    natural (digits ++ more) = 10 ^ more.length * natural digits + natural more := by
  rw [natural, natural, natural, Nat.ofDigitChars_append, Nat.ofDigitChars_eq_ofDigitChars_zero]

theorem natural_cons (c : Char) (digits : List Char) :
    natural (c :: digits) = 10 ^ digits.length * (c.toNat - '0'.toNat) + natural digits := by
  have one : natural [c] = c.toNat - '0'.toNat := by simp [natural, Nat.ofDigitChars_cons]
  rw [← List.singleton_append, natural_append, one]

@[simp] theorem natural_toDigits (n : Nat) : natural (Nat.toDigits 10 n) = n :=
  Nat.ofDigitChars_ten_toDigits

@[simp] theorem natural_replicate_zero (n : Nat) : natural (List.replicate n '0') = 0 := by
  rw [natural, Nat.ofDigitChars_replicate_zero, mul_zero]

/-! ## Gathering -/

/-- What is gathered of digits, and what is left because the next digit is too much. -/
structure Gathers (held : Nat) (digits taken left : List Char) (significand : Nat) : Prop where
  split : digits = taken ++ left
  value : Nat.ofDigitChars 10 taken held = significand
  wide : held < 2 ^ 64 → significand < 2 ^ 64
  next : ∀ digit rest, left = digit :: rest → 2 ^ 64 ≤ 10 * significand + (digit.toNat - '0'.toNat)

theorem exists_gathers (held : Nat) (digits : List Char) :
    ∃ taken, Gathers held digits taken (gather held digits).2 (gather held digits).1 := by
  induction digits generalizing held with
  | nil => exact ⟨[], rfl, rfl, id, nofun⟩
  | cons digit rest ih =>
      unfold gather
      simp only
      split
      next fits =>
        obtain ⟨taken, gathered⟩ := ih (held * 10 + (digit.toNat - '0'.toNat))
        refine ⟨digit :: taken, ?_, ?_, fun _ => gathered.wide fits, gathered.next⟩
        · rw [List.cons_append, ← gathered.split]
        · rw [Nat.ofDigitChars_cons, Nat.mul_comm 10, gathered.value]
      next exceeds =>
        refine ⟨[], rfl, rfl, id, ?_⟩
        rintro _ _ ⟨⟩
        rw [Nat.mul_comm]
        omega

theorem Gathers.natural_eq {digits taken left : List Char} {significand : Nat}
    (h : Gathers 0 digits taken left significand) :
    natural digits = 10 ^ left.length * significand + natural left := by
  have taken_eq : natural taken = significand := h.value
  rw [h.split, natural_append, taken_eq]

/-- Where digits are left out, the number is beyond 64 bits. -/
theorem Gathers.le_natural {digits taken rest : List Char} {digit : Char} {significand : Nat}
    (h : Gathers 0 digits taken (digit :: rest) significand) :
    10 ^ rest.length * 2 ^ 64 ≤ natural digits := by
  have scaled := Nat.mul_le_mul_left (10 ^ rest.length) (h.next digit rest rfl)
  rw [h.natural_eq, natural_cons, List.length_cons, Nat.pow_succ 10]
  generalize 10 ^ rest.length = ten at *
  nlinarith

/-- Digits that are left out only make a number smaller. -/
theorem gathered_le {whole fraction taken beyond more left : List Char} {held significand : Nat}
    (front : Gathers 0 whole taken beyond held) (back : Gathers held fraction more left significand) :
    significand * 10 ^ (beyond.length + left.length) ≤ natural (whole ++ fraction) := by
  have whole_eq := front.natural_eq
  have both_eq : natural (whole ++ fraction) =
      10 ^ (more.length + left.length) * natural whole + natural fraction := by
    rw [natural_append, back.split, List.length_append]
  cases beyond with
  | nil =>
      have gathered : significand = 10 ^ more.length * held + natural more := by
        rw [← back.value, Nat.ofDigitChars_eq_ofDigitChars_zero]
        rfl
      have rest : natural fraction = 10 ^ left.length * natural more + natural left := by
        rw [back.split, natural_append]
      have held_eq : natural whole = held := by simpa [natural] using whole_eq
      calc significand * 10 ^ (([] : List Char).length + left.length)
          = 10 ^ (more.length + left.length) * held + 10 ^ left.length * natural more := by
            rw [gathered, List.length_nil, Nat.zero_add, pow_add]
            ring
        _ ≤ natural (whole ++ fraction) := by
            rw [both_eq, held_eq, rest]
            omega
  | cons digit rest =>
      cases more with
      | nil =>
          have gathered : significand = held := back.value.symm
          calc significand * 10 ^ ((digit :: rest).length + left.length)
              = 10 ^ left.length * (10 ^ (digit :: rest).length * held) := by
                rw [gathered, pow_add]
                ring
            _ ≤ 10 ^ left.length * natural whole :=
                Nat.mul_le_mul_left _ (whole_eq ▸ Nat.le_add_right _ _)
            _ ≤ natural (whole ++ fraction) := by
                rw [both_eq, List.length_nil, Nat.zero_add]
                exact Nat.le_add_right _ _
      | cons first others =>
          have small := back.wide (front.wide (by decide))
          calc significand * 10 ^ ((digit :: rest).length + left.length)
              ≤ 2 ^ 64 * 10 ^ ((digit :: rest).length + left.length) :=
                Nat.mul_le_mul_right _ small.le
            _ ≤ 2 ^ 64 * 10 ^ (rest.length + ((first :: others).length + left.length)) := by
                refine Nat.mul_le_mul_left _ (Nat.pow_le_pow_right (by decide) ?_)
                simp only [List.length_cons]
                omega
            _ = 10 ^ ((first :: others).length + left.length) * (10 ^ rest.length * 2 ^ 64) := by
                rw [pow_add]
                ring
            _ ≤ 10 ^ ((first :: others).length + left.length) * natural whole :=
                Nat.mul_le_mul_left _ front.le_natural
            _ ≤ natural (whole ++ fraction) := both_eq ▸ Nat.le_add_right _ _

theorem gather_of_lt {digits : List Char} {held : Nat}
    (small : Nat.ofDigitChars 10 digits held < 2 ^ 64) :
    gather held digits = (Nat.ofDigitChars 10 digits held, []) := by
  induction digits generalizing held with
  | nil => rfl
  | cons c rest ih =>
      rw [Nat.ofDigitChars_cons, Nat.mul_comm] at small ⊢
      have fits : held * 10 + (c.toNat - '0'.toNat) < 0x10000000000000000 := by
        rw [Nat.ofDigitChars_eq_ofDigitChars_zero] at small
        exact (Nat.le_mul_of_pos_left _ (by positivity)).trans_lt
          ((Nat.le_add_right _ _).trans_lt small)
      unfold gather
      simp only
      rw [if_pos fits, ih small]

/-! ## Values -/

def power (numeral : Numeral) : Int := numeral.writtenPower - (numeral.fraction.getD []).length

/-- The size of the number that a decimal numeral stands for, its sign aside. -/
def size (numeral : Numeral) : ℚ :=
  natural (numeral.whole ++ numeral.fraction.getD []) * 10 ^ numeral.power

theorem Written.size_lt {numeral : Numeral} {text : List Char} (h : numeral.Written text) :
    numeral.size < 10 ^ (numeral.whole.length + numeral.writtenPower) := by
  have fraction_digits : ∀ c ∈ numeral.fraction.getD [], c.isDigit = true := by
    cases hf : numeral.fraction with
    | none => nofun
    | some run => exact (h.fraction run hf).digit
  have digits : ∀ c ∈ numeral.whole ++ numeral.fraction.getD [], c.isDigit = true := fun c hc =>
    (List.mem_append.mp hc).elim (h.whole.digit c) (fraction_digits c)
  have digits_lt : (natural (numeral.whole ++ numeral.fraction.getD []) : ℚ) <
      10 ^ ((numeral.whole.length + (numeral.fraction.getD []).length : Nat) : Int) := by
    rw [zpow_natCast, ← List.length_append]
    exact_mod_cast natural_lt digits
  have split : (numeral.whole.length + numeral.writtenPower : Int) =
      (numeral.whole.length + (numeral.fraction.getD []).length : Nat) + numeral.power := by
    unfold power
    omega
  rw [size, split, zpow_add₀ (by norm_num)]
  exact mul_lt_mul_of_pos_right digits_lt (zpow_pos (by norm_num) _)

theorem Written.writtenPower_lt {numeral : Numeral} {text : List Char} (h : numeral.Written text)
    {length : Nat} (short : ∀ power ∈ numeral.exponent, power.2.length ≤ length) :
    numeral.writtenPower < 10 ^ length := by
  have powers_lt {digits : List Char} (run : DigitRun digits) (hl : digits.length ≤ length) :
      (natural digits : Int) < 10 ^ length := by
    exact_mod_cast (natural_lt run.digit).trans_le (Nat.pow_le_pow_right (by decide) hl)
  have pos : (0 : Int) < 10 ^ length := by positivity
  unfold writtenPower
  split
  next => exact pos
  next digits he => exact (neg_nonpos.mpr (Int.natCast_nonneg _)).trans_lt pos
  next digits he => exact powers_lt (h.exponent _ he) (short _ he)

theorem ten_zpow_le_safeLimit : (10 : ℚ) ^ (199 : Int) ≤ Binary64.safeLimit := by
  have h : 10 ^ 199 ≤ 2 ^ 971 := by decide +kernel
  have h' : (10 : ℚ) ^ (199 : Int) ≤ 2 ^ (971 : Int) := by exact_mod_cast h
  exact h'.trans (le_mul_of_one_le_left (Binary64.two_zpow_pos 971).le (by norm_num))

theorem Written.size_le_safeLimit {numeral : Numeral} {text : List Char}
    (h : numeral.Written text) (whole_short : numeral.whole.length ≤ 100)
    (exponent_short : ∀ power ∈ numeral.exponent, power.2.length ≤ 2) :
    numeral.size ≤ Binary64.safeLimit := by
  have power_lt := h.writtenPower_lt exponent_short
  refine h.size_lt.le.trans (le_trans ?_ ten_zpow_le_safeLimit)
  exact zpow_le_zpow_right₀ (by norm_num) (by omega)

/-- A numeral is read as a number that is no greater than the one it stands for. -/
theorem parts_le_size (numeral : Numeral) :
    numeral.parts.1 < 2 ^ 64 ∧
      (numeral.parts.1 : ℚ) * 10 ^ numeral.parts.2 ≤ numeral.size := by
  obtain ⟨taken, front⟩ := exists_gathers 0 numeral.whole
  obtain ⟨more, back⟩ := exists_gathers (gather 0 numeral.whole).1 (numeral.fraction.getD [])
  refine ⟨back.wide (front.wide (by decide)), ?_⟩
  have le := gathered_le front back
  have length_le : (gather (gather 0 numeral.whole).1 (numeral.fraction.getD [])).2.length ≤
      (numeral.fraction.getD []).length := by
    have lengths := congrArg List.length back.split
    rw [List.length_append] at lengths
    omega
  have power_eq : numeral.parts.2 = numeral.power +
      ((gather 0 numeral.whole).2.length +
        (gather (gather 0 numeral.whole).1 (numeral.fraction.getD [])).2.length : Nat) := by
    simp only [parts, power]
    omega
  have hpos : (0 : ℚ) < 10 ^ numeral.power := zpow_pos (by norm_num) _
  rw [power_eq, zpow_add₀ (by norm_num), size, zpow_natCast, mul_comm (10 ^ numeral.power),
    ← mul_assoc]
  refine mul_le_mul_of_nonneg_right ?_ hpos.le
  exact_mod_cast le

theorem exists_value? {numeral : Numeral} (small : numeral.size ≤ Binary64.safeLimit) :
    ∃ n, numeral.value? = some n := by
  obtain ⟨wide, le⟩ := numeral.parts_le_size
  obtain ⟨x, hx⟩ := Binary64.exists_ofParts? wide (le.trans small)
  unfold value?
  split
  · exact ⟨_, rfl⟩
  · exact ⟨.float (x.withSign numeral.negative), by rw [double?, hx]; rfl⟩

theorem value?_of_fraction (negative : Bool) (whole run : List Char) :
    value? ⟨negative, whole, some run, none⟩ =
      (double? ⟨negative, whole, some run, none⟩).map .float := by
  simp [value?]

/-- Up to 15 digits around a point are read as the double that attracts them. -/
theorem value?_of_attracts {negative : Bool} {whole run text : List Char}
    (written : Written ⟨negative, whole, some run, none⟩ text)
    (short : whole.length + run.length ≤ 15) {x : Binary64} (nonzero : x.significand ≠ 0)
    (h : x.Attracts (size ⟨negative, whole, some run, none⟩)) :
    value? ⟨negative, whole, some run, none⟩ = some (.float (x.withSign negative)) := by
  have fraction := written.fraction run rfl
  have digits : natural (whole ++ run) < 10 ^ 15 :=
    (natural_lt fun c hc =>
      (List.mem_append.mp hc).elim (written.whole.digit c) (fraction.digit c)).trans_le
      (Nat.pow_le_pow_right (by decide) (by simpa using short))
  have all : Nat.ofDigitChars 10 run (natural whole) = natural (whole ++ run) := by
    rw [natural, natural, Nat.ofDigitChars_append]
  have whole_le : natural whole ≤ natural (whole ++ run) := by
    rw [natural_append]
    exact (Nat.le_mul_of_pos_left _ (by positivity)).trans (Nat.le_add_right _ _)
  have front : gather 0 whole = (natural whole, []) :=
    gather_of_lt ((whole_le.trans_lt digits).trans (by decide))
  have back : gather (natural whole) run = (natural (whole ++ run), []) := by
    rw [← all] at digits ⊢
    exact gather_of_lt (digits.trans (by decide))
  have parts_eq : parts ⟨negative, whole, some run, none⟩ =
      (natural (whole ++ run), -(run.length : Int)) := by
    simp [parts, front, back, writtenPower]
  have attracts : (x.withSign false).Attracts
      (natural (whole ++ run) * 10 ^ (-(run.length : Int))) := by
    have size_eq : size ⟨negative, whole, some run, none⟩ =
        natural (whole ++ run) * 10 ^ (-(run.length : Int)) := by
      simp [size, power, writtenPower]
    rw [← size_eq]
    exact ⟨h.lower, h.upper, h.ends⟩
  have some_digit : 1 ≤ run.length := List.length_pos_iff.mpr fraction.ne_nil
  have read : Binary64.ofParts? (natural (whole ++ run)) (-(run.length : Int)) =
      some (x.withSign false) :=
    Binary64.ofParts?_of_attracts (x := x.withSign false) rfl nonzero (digits.trans (by decide))
      some_digit (by omega) attracts
  rw [value?_of_fraction, double?, parts_eq, read]
  rfl

end Numeral

end GameCatalog.Json
