import GameCatalog.Json.Scan
import GameCatalog.Json.Text
import GameCatalog.Proofs.Except
import Mathlib.Data.List.TakeWhile

/-!
# Reading numbers back

A number reader stops at the first character that cannot go on a number, so what it makes of a
whole text it also makes of that text before anything that stops it. An integer reads back from
its digits.
-/

namespace GameCatalog.Json

/-- A text that does not go on a number before it. -/
def Stops (text : List Char) : Prop :=
  ∀ c ∈ text.head?, c.isDigit = false ∧ c ≠ '.' ∧ c ≠ 'e' ∧ c ≠ 'E'

@[simp] theorem stops_nil : Stops [] := nofun

@[simp] theorem stops_cons {c : Char} {rest : List Char} :
    Stops (c :: rest) ↔ c.isDigit = false ∧ c ≠ '.' ∧ c ≠ 'e' ∧ c ≠ 'E' := by
  simp [Stops]

/-- A reader whose result stays the same before a text that stops it. -/
def Bounded (reader : Reader α) : Prop :=
  ∀ {text left more : List Char} {value : α}, Stops more → reader text = .ok (value, left) →
    reader (text ++ more) = .ok (value, left ++ more)

/-! ## Runs of digits -/

section Digits

variable {more : List Char}

theorem takeWhile_isDigit_append (hs : Stops more) (text : List Char) :
    (text ++ more).takeWhile Char.isDigit = text.takeWhile Char.isDigit := by
  induction text with
  | nil =>
      cases more with
      | nil => rfl
      | cons c rest => simp [(stops_cons.mp hs).1]
  | cons c rest ih => simp [List.takeWhile_cons, ih]

theorem dropWhile_isDigit_append (hs : Stops more) (text : List Char) :
    (text ++ more).dropWhile Char.isDigit = text.dropWhile Char.isDigit ++ more := by
  induction text with
  | nil =>
      cases more with
      | nil => rfl
      | cons c rest => simp [(stops_cons.mp hs).1]
  | cons c rest ih =>
      by_cases hc : c.isDigit <;> simp [hc, ih]

theorem bounded_digits (atEnd : Fault) : Bounded (digits atEnd) := by
  intro text left more run hs h
  unfold digits at h ⊢
  rw [takeWhile_isDigit_append hs, dropWhile_isDigit_append hs]
  by_cases he : (text.takeWhile Char.isDigit).isEmpty
  · simp [he] at h
  · simp only [he, Bool.false_eq_true, if_false, Except.ok.injEq, Prod.mk.injEq] at h ⊢
    exact ⟨h.1, by rw [h.2]⟩

theorem bounded_wholeDigits (atEnd : Fault) : Bounded (wholeDigits atEnd) := by
  intro text left more run hs h
  unfold wholeDigits at h ⊢
  obtain ⟨⟨whole, rest⟩, hd, h⟩ := bind_eq_ok_iff.mp h
  simp only [bounded_digits atEnd hs hd, ok_bind]
  by_cases hz : whole.head? = some '0' ∧ whole.length ≠ 1
  · simp [hz] at h
  · simp only [hz, if_false, Except.ok.injEq, Prod.mk.injEq] at h ⊢
    exact ⟨h.1, by rw [h.2]⟩

theorem bounded_fraction (atEnd : Fault) : Bounded (fraction atEnd) := by
  intro text left more run hs h
  unfold fraction at h
  split at h
  next text =>
    obtain ⟨⟨run, rest⟩, hd, h⟩ := bind_eq_ok_iff.mp h
    cases h
    simp [fraction, bounded_digits atEnd hs hd]
  next hpoint =>
    cases h
    have hnot : ∀ tail, text ++ more ≠ '.' :: tail := by
      intro tail he
      cases text with
      | nil =>
          rw [List.nil_append] at he
          subst he
          exact (stops_cons.mp hs).2.1 rfl
      | cons c rest =>
          simp only [List.cons_append, List.cons.injEq] at he
          exact hpoint rest (by rw [he.1])
    unfold fraction
    split
    next he => exact absurd he (hnot _)
    next => rfl

theorem ne_nil_of_digits {atEnd : Fault} {text left run : List Char}
    (h : digits atEnd text = .ok (run, left)) : text ≠ [] := by
  rintro rfl
  simp [digits] at h

theorem sign_append {text : List Char} (h : text ≠ []) :
    sign (text ++ more) = ((sign text).1, (sign text).2 ++ more) := by
  cases text with
  | nil => exact absurd rfl h
  | cons c rest =>
      by_cases hm : c = '-'
      · simp [sign, hm]
      · by_cases hp : c = '+'
        · simp [sign, hp]
        · simp [sign, hm, hp]

theorem bounded_exponent (atEnd : Fault) : Bounded (exponent atEnd) := by
  intro text left more run hs h
  cases text with
  | nil =>
      simp only [exponent, Except.ok.injEq, Prod.mk.injEq] at h
      obtain ⟨rfl, rfl⟩ := h
      cases more with
      | nil => rfl
      | cons c rest =>
          obtain ⟨-, -, he, hE⟩ := stops_cons.mp hs
          simp [exponent, he, hE]
  | cons c rest =>
      simp only [exponent] at h
      split at h
      next hc =>
        obtain ⟨⟨run, tail⟩, hd, h⟩ := bind_eq_ok_iff.mp h
        cases h
        have hne : rest ≠ [] := by
          rintro rfl
          exact ne_nil_of_digits hd rfl
        simp [exponent, hc, sign_append hne, bounded_digits atEnd hs hd]
      next hc =>
        cases h
        simp [exponent, hc]

def minus : List Char → Bool × List Char
  | '-' :: rest => (true, rest)
  | text => (false, text)

theorem minus_append {text : List Char} (h : text ≠ []) :
    minus (text ++ more) = ((minus text).1, (minus text).2 ++ more) := by
  obtain ⟨c, rest, rfl⟩ := List.exists_cons_of_ne_nil h
  by_cases hm : c = '-' <;> simp [minus, hm]

theorem numeral_eq (atEnd : Fault) (text : List Char) :
    numeral atEnd text = (do
      let (whole, rest) ← wholeDigits atEnd (minus text).2
      let (fraction, rest) ← fraction atEnd rest
      let (exponent, rest) ← exponent atEnd rest
      .ok (⟨(minus text).1, whole, fraction, exponent⟩, rest)) := by
  cases text with
  | nil => rfl
  | cons c rest => by_cases hm : c = '-' <;> simp [numeral, minus, hm]

theorem bounded_numeral (atEnd : Fault) : Bounded (numeral atEnd) := by
  intro text left more written hs h
  have hne : text ≠ [] := by
    rintro rfl
    simp [numeral, wholeDigits, digits] at h
  rw [numeral_eq] at h ⊢
  obtain ⟨⟨whole, rest⟩, hw, h⟩ := bind_eq_ok_iff.mp h
  obtain ⟨⟨part, rest⟩, hf, h⟩ := bind_eq_ok_iff.mp h
  obtain ⟨⟨power, rest⟩, he, h⟩ := bind_eq_ok_iff.mp h
  simp only [Except.ok.injEq, Prod.mk.injEq] at h
  simp [minus_append hne, bounded_wholeDigits atEnd hs hw, bounded_fraction atEnd hs hf,
    bounded_exponent atEnd hs he, h.1, h.2]

theorem bounded_number : Bounded number := by
  intro text left more n hs h
  unfold number at h ⊢
  obtain ⟨⟨written, rest⟩, hw, h⟩ := bind_eq_ok_iff.mp h
  simp only [bounded_numeral _ hs hw, ok_bind]
  cases hv : written.value? with
  | none => simp [hv] at h
  | some n =>
      simp only [hv, Except.ok.injEq, Prod.mk.injEq] at h
      simp [h.1, h.2]

end Digits

/-- The double reads back from its spelling in data files as itself. -/
def ReadsBack (x : Binary64) : Prop := number x.dataText = .ok (.float x, [])

theorem readsBack_zero (negative : Bool) : ReadsBack (.zero negative) := by
  cases negative <;> rfl

theorem starts_of_number {text left : List Char} {n : Number} (h : number text = .ok (n, left)) :
    ∃ c rest, text = c :: rest ∧ (c = '-' ∨ c.isDigit = true) := by
  unfold number at h
  rw [numeral_eq] at h
  obtain ⟨⟨written, tail⟩, h, -⟩ := bind_eq_ok_iff.mp h
  obtain ⟨⟨whole, tail⟩, hw, -⟩ := bind_eq_ok_iff.mp h
  obtain ⟨⟨run, tail⟩, hd, -⟩ := bind_eq_ok_iff.mp hw
  cases text with
  | nil => simp [minus, digits] at hd
  | cons c rest =>
      refine ⟨c, rest, rfl, ?_⟩
      by_cases hm : c = '-'
      · exact .inl hm
      · right
        by_contra hc
        simp [minus, hm, digits, hc] at hd

/-! ## Integers -/

theorem head_toDigits_ne_zero {n : Nat} (h : n ≠ 0) : (Nat.toDigits 10 n).head? ≠ some '0' := by
  induction n using Nat.strongRecOn with
  | ind n ih =>
      by_cases hlt : n < 10
      · rw [Nat.toDigits_of_lt_base hlt]
        simpa using h
      · rw [Nat.toDigits_of_base_le (by decide) (Nat.le_of_not_lt hlt), List.head?_append]
        have hrest := ih (n / 10) (by omega) (by omega)
        cases hd : (Nat.toDigits 10 (n / 10)).head? with
        | none => simp at hd
        | some c => simpa [hd] using hrest

theorem Numeral.value?_eq_int_iff {numeral : Numeral} {n : Int} {inRange : InWideRange n} :
    numeral.value? = some (.int n inRange) ↔
      (numeral.fraction = none ∧ numeral.exponent = none ∧
        ¬(numeral.negative ∧ numeral.integer = 0)) ∧ numeral.integer = n := by
  unfold value?
  split
  next plain =>
    rw [Option.some.injEq, Number.int.injEq]
    exact (and_iff_right plain.2).symm
  next other =>
    constructor
    · intro h
      obtain ⟨x, -, hx⟩ := Option.map_eq_some_iff.mp h
      cases hx
    · rintro ⟨plain, rfl⟩
      exact absurd ⟨inRange, plain⟩ other

theorem wholeDigits_toDigits (atEnd : Fault) (n : Nat) :
    wholeDigits atEnd (Nat.toDigits 10 n) = .ok (Nat.toDigits 10 n, []) := by
  have hall : ∀ c ∈ Nat.toDigits 10 n, c.isDigit = true := fun c hc =>
    Nat.isDigit_of_mem_toDigits (by decide) (by decide) hc
  have hzero : ¬((Nat.toDigits 10 n).head? = some '0' ∧ (Nat.toDigits 10 n).length ≠ 1) := by
    rintro ⟨hh, hl⟩
    by_cases hn : n = 0
    · simp [hn] at hl
    · exact head_toDigits_ne_zero hn hh
  have htake := List.takeWhile_eq_self_iff.mpr hall
  have hdrop := List.dropWhile_eq_nil_iff.mpr hall
  unfold wholeDigits digits
  simp only [htake, hdrop, List.isEmpty_iff, Nat.toDigits_ne_nil, if_false, ok_bind, hzero]

theorem number_intText (n : Int) (inRange : InWideRange n) :
    number (intText n) = .ok (.int n inRange, []) := by
  have hvalue : (Numeral.mk (n < 0) (Nat.toDigits 10 n.natAbs) none none).value? =
      some (.int n inRange) := by
    have size_eq : Numeral.natural (Nat.toDigits 10 n.natAbs) = n.natAbs :=
      Nat.ofDigitChars_ten_toDigits
    have integer_eq : (Numeral.mk (n < 0) (Nat.toDigits 10 n.natAbs) none none).integer = n := by
      by_cases hn : n < 0
      · simp only [Numeral.integer, size_eq, hn, decide_true, if_true]
        omega
      · simp only [Numeral.integer, size_eq, hn, decide_false, Bool.false_eq_true, if_false]
        omega
    rw [Numeral.value?_eq_int_iff, integer_eq]
    simp only [decide_eq_true_eq, true_and, and_true]
    omega
  have hminus : minus (intText n) = (decide (n < 0), Nat.toDigits 10 n.natAbs) := by
    unfold intText
    by_cases hn : n < 0
    · simp [hn, minus]
    · have hne : Nat.toDigits 10 n.natAbs ≠ [] := Nat.toDigits_ne_nil
      obtain ⟨c, rest, hd⟩ := List.exists_cons_of_ne_nil hne
      have hmem : c ∈ Nat.toDigits 10 n.natAbs := by simp [hd]
      have hc := Nat.isDigit_of_mem_toDigits (by decide) (by decide) hmem
      have hm : c ≠ '-' := by
        rintro rfl
        simp at hc
      simp [hn, hd, minus, hm]
  unfold number
  rw [numeral_eq, hminus]
  simp [wholeDigits_toDigits, fraction, exponent, hvalue]

end GameCatalog.Json
