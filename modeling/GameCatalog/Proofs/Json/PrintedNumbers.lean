import GameCatalog.Proofs.Binary64.Shortest
import GameCatalog.Proofs.Json.NumeralValue

/-!
# Printed numbers

The text of a number is a numeral that stands for it: the digits of an integer, and the shortest
decimal of a double, positional or with an exponent. Cut short, the text of a number is incomplete or
another number; it never becomes one that is out of range.
-/

namespace GameCatalog.Json

namespace Numeral

/-- Few enough digits for every number that a cut leaves to be in range. -/
structure Short (numeral : Numeral) : Prop where
  whole : numeral.whole.length ≤ 100
  exponent : ∀ power ∈ numeral.exponent, power.2.length ≤ 3

/-- The text spells a decimal of this sign and size. -/
structure Spells (numeral : Numeral) (negative : Bool) (size : ℚ) (text : List Char) : Prop where
  written : numeral.Written (signText negative ++ text)
  sign : numeral.negative = negative
  decimal : ¬(numeral.fraction = none ∧ numeral.exponent = none)
  size_eq : numeral.size = size
  short : numeral.Short

end Numeral

/-! ## Digits of a number -/

theorem digitRun_toDigits (n : Nat) : DigitRun (Nat.toDigits 10 n) :=
  ⟨Nat.toDigits_ne_nil, fun _ hc => Nat.isDigit_of_mem_toDigits (by decide) (by decide) hc⟩

theorem isDigit_of_mem_zeros {count : Nat} {c : Char} (h : c ∈ List.replicate count '0') :
    c.isDigit = true := by
  rw [(List.mem_replicate.mp h).2]
  rfl

theorem DigitRun.append {run : List Char} (h : DigitRun run) {more : List Char}
    (digits : ∀ c ∈ more, c.isDigit = true) : DigitRun (run ++ more) :=
  ⟨by simp [h.ne_nil], fun c hc => (List.mem_append.mp hc).elim (h.digit c) (digits c)⟩

theorem DigitRun.after {run : List Char} (h : DigitRun run) {before : List Char}
    (digits : ∀ c ∈ before, c.isDigit = true) : DigitRun (before ++ run) :=
  ⟨by simp [h.ne_nil], fun c hc => (List.mem_append.mp hc).elim (digits c) (h.digit c)⟩

theorem zero_alone_toDigits (n : Nat) (h : (Nat.toDigits 10 n).head? = some '0') :
    Nat.toDigits 10 n = ['0'] := by
  by_cases hn : n = 0
  · rw [hn]
    rfl
  · exact absurd h (head_toDigits_ne_zero hn)

/-! ## Decimals -/

section Decimals

variable {digits : Nat} (nonzero : digits ≠ 0) (negative : Bool) (power : Int)

include nonzero

theorem exists_trailingZeros (whole_power : 0 ≤ power)
    (short : (Nat.toDigits 10 digits).length + power ≤ 100) :
    ∃ numeral : Numeral, numeral.Spells negative (digits * 10 ^ power)
      (Nat.toDigits 10 digits ++ List.replicate power.toNat '0' ++ ['.', '0']) := by
  obtain ⟨n, rfl⟩ := Int.eq_ofNat_of_zero_le whole_power
  have run := digitRun_toDigits digits
  have whole_run := run.append fun c (hc : c ∈ List.replicate n '0') => isDigit_of_mem_zeros hc
  refine ⟨⟨negative, Nat.toDigits 10 digits ++ List.replicate n '0', some ['0'], none⟩,
    ⟨whole_run, fun hz => ?_, ?_, nofun, [], .none, by simp [Numeral.fractionText]⟩, rfl, nofun, ?_,
    ?_, nofun⟩
  · rw [List.head?_append_of_ne_nil _ run.ne_nil] at hz
    exact absurd hz (head_toDigits_ne_zero nonzero)
  · rintro _ ⟨⟩
    exact ⟨by simp, by simp⟩
  · have zero : Numeral.natural ['0'] = 0 := rfl
    have exponent : Numeral.power ⟨negative, Nat.toDigits 10 digits ++ List.replicate n '0',
        some ['0'], none⟩ = -1 := rfl
    rw [Numeral.size, exponent]
    simp only [Option.getD_some, Numeral.natural_append, Numeral.natural_toDigits, zero,
      Numeral.natural_replicate_zero, List.length_replicate, List.length_singleton]
    push_cast
    rw [zpow_natCast, zpow_neg_one]
    ring
  · simp only [List.length_append, List.length_replicate]
    omega

theorem exists_pointInside (fractional : power < 0) {whole : Nat} (whole_pos : 0 < whole)
    (length_eq : ((Nat.toDigits 10 digits).length : Int) + power = whole) (short : whole ≤ 100) :
    ∃ numeral : Numeral, numeral.Spells negative (digits * 10 ^ power)
      ((Nat.toDigits 10 digits).take whole ++ '.' :: (Nat.toDigits 10 digits).drop whole) := by
  have run := digitRun_toDigits digits
  have length_take : ((Nat.toDigits 10 digits).take whole).length = whole := by
    rw [List.length_take]
    omega
  have length_drop : (((Nat.toDigits 10 digits).drop whole).length : Int) = -power := by
    rw [List.length_drop]
    omega
  have take_ne_nil : (Nat.toDigits 10 digits).take whole ≠ [] := by
    rw [← List.length_pos_iff, length_take]
    exact whole_pos
  have drop_ne_nil : (Nat.toDigits 10 digits).drop whole ≠ [] := by
    rw [← List.length_pos_iff]
    omega
  refine ⟨⟨negative, (Nat.toDigits 10 digits).take whole,
    some ((Nat.toDigits 10 digits).drop whole), none⟩,
    ⟨run.of_begins (List.take_prefix _ _) take_ne_nil, fun hz => ?_, ?_, nofun, [], .none,
      by simp [Numeral.fractionText]⟩, rfl, nofun, ?_, length_take.le.trans short, nofun⟩
  · rw [List.head?_take, if_neg (by omega)] at hz
    exact absurd hz (head_toDigits_ne_zero nonzero)
  · rintro _ ⟨⟩
    exact ⟨drop_ne_nil, fun c hc => run.digit c (List.mem_of_mem_drop hc)⟩
  · have exponent : Numeral.power ⟨negative, (Nat.toDigits 10 digits).take whole,
        some ((Nat.toDigits 10 digits).drop whole), none⟩ = power := by
      simp only [Numeral.power, Numeral.writtenPower, Option.getD_some]
      omega
    rw [Numeral.size, exponent]
    simp only [Option.getD_some, List.take_append_drop, Numeral.natural_toDigits]

omit nonzero in
theorem exists_leadingZeros {zeros : Nat}
    (length_eq : ((Nat.toDigits 10 digits).length : Int) + power = -zeros) :
    ∃ numeral : Numeral, numeral.Spells negative (digits * 10 ^ power)
      ('0' :: '.' :: List.replicate zeros '0' ++ Nat.toDigits 10 digits) := by
  have fraction_run := (digitRun_toDigits digits).after
    fun c (hc : c ∈ List.replicate zeros '0') => isDigit_of_mem_zeros hc
  refine ⟨⟨negative, ['0'], some (List.replicate zeros '0' ++ Nat.toDigits 10 digits), none⟩,
    ⟨⟨by simp, by simp⟩, fun _ => rfl, ?_, nofun, [], .none, by simp [Numeral.fractionText]⟩,
    rfl, nofun, ?_, by simp, nofun⟩
  · rintro _ ⟨⟩
    exact fraction_run
  · have exponent : Numeral.power ⟨negative, ['0'],
        some (List.replicate zeros '0' ++ Nat.toDigits 10 digits), none⟩ = power := by
      simp only [Numeral.power, Numeral.writtenPower, Option.getD_some, List.length_append,
        List.length_replicate]
      omega
    have zero : Numeral.natural ['0'] = 0 := rfl
    rw [Numeral.size, exponent]
    simp only [Option.getD_some, Numeral.natural_append, Numeral.natural_toDigits, zero,
      Numeral.natural_replicate_zero]
    simp

theorem exists_positional (short : (Nat.toDigits 10 digits).length + power ≤ 100) :
    ∃ numeral : Numeral, numeral.Spells negative (digits * 10 ^ power)
      (Decimal.positional (Nat.toDigits 10 digits) power ['.', '0']) := by
  unfold Decimal.positional
  split
  next whole_power => exact exists_trailingZeros nonzero negative power whole_power short
  next fractional =>
    simp only
    split
    next inside =>
      exact exists_pointInside nonzero negative power (by omega) (by omega) (by omega) (by omega)
    next before => exact exists_leadingZeros negative power (by omega)

omit nonzero in
theorem power_scientific (whole : List Char) (fraction : Option (List Char)) (exponent : Int) :
    Numeral.power ⟨negative, whole, fraction, some (decide (exponent < 0),
      Nat.toDigits 10 exponent.natAbs)⟩ = exponent - (fraction.getD []).length := by
  unfold Numeral.power Numeral.writtenPower
  by_cases minus : exponent < 0
  · simp only [minus, decide_true, Numeral.natural_toDigits]
    omega
  · simp only [minus, decide_false, Numeral.natural_toDigits]
    omega

omit nonzero in
theorem exponentText_scientific (exponent : Int) :
    ExponentText (some (decide (exponent < 0), Nat.toDigits 10 exponent.natAbs))
      ('e' :: (if exponent < 0 then '-' else '+') :: Nat.toDigits 10 exponent.natAbs) := by
  by_cases minus : exponent < 0
  · simpa [minus] using ExponentText.minus (.inl rfl)
  · simpa [minus] using ExponentText.plus (.inl rfl)

theorem exists_scientific {exponent : Int}
    (exponent_eq : exponent = (Nat.toDigits 10 digits).length - 1 + power)
    (short : exponent.natAbs < 1000) :
    ∃ numeral : Numeral, numeral.Spells negative (digits * 10 ^ power)
      (Decimal.scientific (Nat.toDigits 10 digits) exponent) := by
  have run := digitRun_toDigits digits
  have exponent_run := digitRun_toDigits exponent.natAbs
  have exponent_short : (Nat.toDigits 10 exponent.natAbs).length ≤ 3 :=
    (Nat.length_toDigits_le_iff (by decide) (by decide)).mpr short
  have lead := head_toDigits_ne_zero nonzero
  have value := Numeral.natural_toDigits digits
  have spelled := exponentText_scientific exponent
  obtain ⟨first, rest, hdigits⟩ := List.exists_cons_of_ne_nil run.ne_nil
  rw [hdigits] at run lead value exponent_eq ⊢
  have first_run : DigitRun [first] := run.of_begins (by simp) (by simp)
  have powers : ∀ power ∈ some (decide (exponent < 0), Nat.toDigits 10 exponent.natAbs),
      DigitRun power.2 := by
    rintro _ ⟨⟩
    exact exponent_run
  have powers_short : ∀ power ∈ some (decide (exponent < 0), Nat.toDigits 10 exponent.natAbs),
      power.2.length ≤ 3 := by
    rintro _ ⟨⟩
    exact exponent_short
  have no_zero {P : Prop} (hz : [first].head? = some '0') : P := absurd hz lead
  cases rest with
  | nil =>
      refine ⟨⟨negative, [first], none, some (decide (exponent < 0),
        Nat.toDigits 10 exponent.natAbs)⟩, ⟨first_run, no_zero, by simp, powers, _, spelled, rfl⟩,
        rfl, by simp, ?_, by simp, powers_short⟩
      have power_eq : exponent = power := by simpa using exponent_eq
      rw [Numeral.size, power_scientific, Option.getD_none, List.append_nil, value, power_eq,
        List.length_nil, Nat.cast_zero, sub_zero]
  | cons second rest =>
      refine ⟨⟨negative, [first], some (second :: rest), some (decide (exponent < 0),
        Nat.toDigits 10 exponent.natAbs)⟩, ⟨first_run, no_zero, ?_, powers, _, spelled, rfl⟩, rfl,
        by simp, ?_, by simp, powers_short⟩
      · rintro _ ⟨⟩
        exact ⟨by simp, fun c hc => run.digit c (List.mem_cons_of_mem _ hc)⟩
      · have power_eq : exponent - (second :: rest).length = power := by
          rw [exponent_eq, List.length_cons]
          push_cast
          ring
        rw [Numeral.size, power_scientific, Option.getD_some, List.singleton_append, value,
          power_eq]

end Decimals

/-! ## Doubles -/

theorem signChars_eq (x : Binary64) : x.signChars = Numeral.signText x.negative := rfl

theorem eq_zero_of_significand {x : Binary64} (h : x.significand = 0) :
    x = Binary64.zero x.negative := by
  obtain ⟨negative, significand, exponent, canonical⟩ := x
  simp only at h
  subst h
  obtain ⟨-, -, -, normal⟩ := canonical
  have least : exponent = -1074 := normal.resolve_left (by decide)
  subst least
  rfl

theorem written_zero (negative : Bool) :
    Numeral.Written ⟨negative, ['0'], some ['0'], none⟩ (Binary64.zero negative).dataText := by
  have digit : ∀ run ∈ some ['0'], DigitRun run := by
    rintro _ ⟨⟩
    exact ⟨by simp, by simp⟩
  exact ⟨digit _ rfl, fun _ => rfl, digit, nofun, [], .none, by cases negative <;> rfl⟩

/-- Both spellings of a decimal give a numeral of its size. -/
theorem exists_numeral_decimal (negative : Bool) {decimal : Decimal} (nonzero : decimal.digits ≠ 0)
    (above : -324 < (Nat.toDigits 10 decimal.digits).length + decimal.power)
    (below : (Nat.toDigits 10 decimal.digits).length + decimal.power ≤ 309) :
    ∃ numeral : Numeral, numeral.Spells negative decimal.value
      (if dataFileRange.least ≤ (Nat.toDigits 10 decimal.digits).length - 1 + decimal.power ∧
          (Nat.toDigits 10 decimal.digits).length - 1 + decimal.power ≤ dataFileRange.greatest then
        Decimal.positional (Nat.toDigits 10 decimal.digits) decimal.power ['.', '0']
      else Decimal.scientific (Nat.toDigits 10 decimal.digits)
        ((Nat.toDigits 10 decimal.digits).length - 1 + decimal.power)) := by
  split
  next plain =>
    have greatest : dataFileRange.greatest = 15 := rfl
    exact exists_positional nonzero negative decimal.power (by omega)
  next => exact exists_scientific nonzero negative decimal.power rfl (by omega)

/-- The text of a double other than zero is a decimal that the double attracts. -/
theorem exists_numeral_dataText {x : Binary64} (nonzero : x.significand ≠ 0) :
    ∃ (numeral : Numeral) (size : ℚ) (text : List Char), x.Attracts size ∧
      numeral.Spells x.negative size text ∧ x.dataText = Numeral.signText x.negative ++ text := by
  have attracts := x.attracts_shortest nonzero dataFileTie
  obtain ⟨digits_nonzero, above, below⟩ := attracts.magnitude nonzero
  obtain ⟨numeral, spells⟩ := exists_numeral_decimal x.negative digits_nonzero above below
  refine ⟨numeral, _, _, attracts, spells, ?_⟩
  unfold Binary64.dataText
  rw [signChars_eq, if_neg nonzero]

/-- A double that is written without an exponent and with up to 15 digits reads back. -/
theorem readsBack_of_plain {x : Binary64} (plain : 'e' ∉ x.dataText ∧ 'E' ∉ x.dataText)
    (short : x.dataText.length ≤ 16) : ReadsBack x := by
  by_cases zero : x.significand = 0
  · rw [eq_zero_of_significand zero]
    exact readsBack_zero _
  obtain ⟨numeral, size, text, attracts, spells, text_eq⟩ := exists_numeral_dataText zero
  obtain ⟨written, sign, decimal, rfl, -⟩ := spells
  obtain ⟨negative, whole, fraction, exponent⟩ := numeral
  rw [← text_eq] at written
  obtain ⟨exponentText, exponent_written, spelled⟩ := written.spelled
  have no_exponent : exponent = none ∧ exponentText = [] := by
    rw [spelled] at plain
    cases exponent_written with
    | none => exact ⟨rfl, rfl⟩
    | minus hletter | plus hletter | plain hletter =>
        rcases hletter with rfl | rfl <;> simp at plain
  obtain ⟨rfl, rfl⟩ := no_exponent
  cases fraction with
  | none => exact absurd ⟨rfl, rfl⟩ decimal
  | some run =>
      have digits : whole.length + run.length ≤ 15 := by
        rw [spelled] at short
        simp [Numeral.fractionText] at short
        omega
      have value := Numeral.value?_of_attracts written digits zero attracts
      rw [ReadsBack, written.number_eq, value]
      subst sign
      rfl

/-- Every double but the last three is far enough from the numbers that are too large. -/
theorem high_le_safeLimit {x : Binary64} (h : x.significand ≤ 2 ^ 53 - 4 ∨ x.exponent < 971) :
    x.high ≤ Binary64.safeLimit := by
  rw [Binary64.high_eq, Binary64.safeLimit]
  rcases h with few | lower
  · have significand_le : (x.significand : ℚ) ≤ 2 ^ 53 - 4 := by
      have cast : ((2 ^ 53 - 4 : Nat) : ℚ) = 2 ^ 53 - 4 := by norm_num
      rw [← cast]
      exact_mod_cast few
    exact mul_le_mul (by linarith) (zpow_le_zpow_right₀ one_le_two x.canonical.2.2.1)
      (Binary64.two_zpow_pos _).le (by norm_num)
  · have significand_le : (x.significand : ℚ) + 1 / 2 ≤ 2 ^ 53 := by
      have cast : (x.significand : ℚ) + 1 ≤ 2 ^ 53 := by exact_mod_cast x.canonical.1
      linarith
    have power_le : (2 : ℚ) ^ x.exponent ≤ 2 ^ (970 : Int) :=
      zpow_le_zpow_right₀ one_le_two (by omega)
    have half : (2 : ℚ) ^ (971 : Int) = 2 * 2 ^ (970 : Int) := Binary64.two_zpow_succ 970
    have hpos := Binary64.two_zpow_pos 970
    rw [half]
    refine (mul_le_mul significand_le power_le (Binary64.two_zpow_pos _).le (by norm_num)).trans ?_
    rw [← mul_assoc]
    exact mul_le_mul_of_nonneg_right (by norm_num) hpos.le

theorem canonical_greatest (below : Fin 3) :
    Binary64.Canonical (2 ^ 53 - 1 - below) 971 := by
  revert below
  decide

/-- The last three doubles are read as doubles too, the one in the middle as another one. -/
theorem number_greatest : ∀ (negative : Bool) (below : Fin 3),
    (number (Binary64.dataText ⟨negative, _, 971, canonical_greatest below⟩)).toOption.map Prod.snd =
      some [] := by decide +kernel

theorem exists_number_greatest {x : Binary64} (many : 2 ^ 53 - 4 < x.significand)
    (highest : x.exponent = 971) : ∃ m, number x.dataText = .ok (m, []) := by
  obtain ⟨negative, significand, exponent, canonical⟩ := x
  subst highest
  simp only at many
  obtain ⟨below, rfl⟩ : ∃ below : Fin 3, 2 ^ 53 - 1 - below = significand := by
    have few := canonical.1
    exact ⟨⟨2 ^ 53 - 1 - significand, by omega⟩, by simp only; omega⟩
  obtain ⟨⟨m, rest⟩, read, none⟩ := Option.map_eq_some_iff.mp (number_greatest negative below)
  cases none
  exact ⟨m, toOption_eq_some_iff.mp read⟩

theorem exists_number_dataText (x : Binary64) : ∃ m, number x.dataText = .ok (m, []) := by
  by_cases zero : x.significand = 0
  · rw [eq_zero_of_significand zero]
    exact ⟨_, readsBack_zero _⟩
  by_cases small : x.significand ≤ 2 ^ 53 - 4 ∨ x.exponent < 971
  · obtain ⟨numeral, size, text, attracts, spells, text_eq⟩ := exists_numeral_dataText zero
    obtain ⟨written, -, -, rfl, -⟩ := spells
    obtain ⟨m, value⟩ := Numeral.exists_value? (attracts.upper.trans (high_le_safeLimit small))
    exact ⟨m, by rw [text_eq, written.number_eq, value]⟩
  · have greatest := x.canonical.2.2.1
    exact exists_number_greatest (by omega) (by omega)

/-! ## Numbers -/

theorem exists_numeral_text (n : Number) :
    ∃ numeral : Numeral, numeral.Written n.text ∧ numeral.Short := by
  cases n with
  | float x =>
      by_cases zero : x.significand = 0
      · rw [Number.text, eq_zero_of_significand zero]
        exact ⟨_, written_zero x.negative, by simp, by simp⟩
      · obtain ⟨numeral, size, text, -, spells, text_eq⟩ := exists_numeral_dataText zero
        exact ⟨numeral, by rw [Number.text, text_eq]; exact spells.written, spells.short⟩
  | int n inRange =>
      have small : n.natAbs < 10 ^ 20 := by
        unfold InWideRange at inRange
        omega
      have length_le : (Nat.toDigits 10 n.natAbs).length ≤ 20 :=
        (Nat.length_toDigits_le_iff (by decide) (by decide)).mpr small
      have written : Numeral.Written ⟨decide (n < 0), Nat.toDigits 10 n.natAbs, none, none⟩
          (intText n) := by
        refine ⟨digitRun_toDigits _, zero_alone_toDigits _, by simp, by simp, [], .none, ?_⟩
        by_cases hn : n < 0 <;> simp [intText, Numeral.signText, Numeral.fractionText, hn]
      exact ⟨_, written, length_le.trans (by decide), by simp⟩

/-- The text of a number is read as a number, though not always as the same double. -/
theorem exists_number_text (n : Number) : ∃ m, number n.text = .ok (m, []) := by
  cases n with
  | int n inRange => exact ⟨_, number_intText n inRange⟩
  | float x => exact exists_number_dataText x

/-- The text of a number that is cut short is incomplete or the text of another number. -/
theorem number_cut (n : Number) {part : List Char} (hp : part <+: n.text) (ne : part ≠ n.text) :
    number part = .error .truncated ∨ ∃ m, number part = .ok (m, []) := by
  obtain ⟨full, written, short⟩ := exists_numeral_text n
  rcases written.cut hp ne with incomplete | ⟨cut, cut_written, shortens⟩
  · left
    rw [number, incomplete, error_bind]
  · right
    have exponent_short : ∀ power ∈ cut.exponent, power.2.length ≤ 2 := by
      intro power hpower
      obtain ⟨longer, hlonger, hlt⟩ := shortens.exponent power hpower
      have := short.exponent longer hlonger
      omega
    obtain ⟨m, value⟩ := Numeral.exists_value?
      (cut_written.size_le_safeLimit (shortens.whole.trans short.whole) exponent_short)
    exact ⟨m, by rw [cut_written.number_eq, value]⟩

end GameCatalog.Json
