import GameCatalog.Proofs.Json.Numerals

/-!
# Written numbers

How a number is written: an optional minus, digits without a needless zero, and optionally a
fraction and an exponent with either letter and any sign. The reader takes such a text for the
numeral that it spells. Cut short, the text is incomplete or spells a shorter numeral.
-/

namespace GameCatalog.Json

/-- One or more digits. -/
structure DigitRun (run : List Char) : Prop where
  ne_nil : run ≠ []
  digit : ∀ c ∈ run, c.isDigit = true

/-- An exponent as it is written: after either letter, and with or without a plus. -/
inductive ExponentText : Option (Bool × List Char) → List Char → Prop where
  | none : ExponentText none []
  | minus {letter : Char} {run : List Char} (h : letter = 'e' ∨ letter = 'E') :
      ExponentText (some (true, run)) (letter :: '-' :: run)
  | plus {letter : Char} {run : List Char} (h : letter = 'e' ∨ letter = 'E') :
      ExponentText (some (false, run)) (letter :: '+' :: run)
  | plain {letter : Char} {run : List Char} (h : letter = 'e' ∨ letter = 'E') :
      ExponentText (some (false, run)) (letter :: run)

namespace Numeral

def signText (negative : Bool) : List Char := if negative then ['-'] else []

def fractionText : Option (List Char) → List Char
  | none => []
  | some run => '.' :: run

/-- The text spells the numeral, by the rules of the format. -/
structure Written (numeral : Numeral) (text : List Char) : Prop where
  whole : DigitRun numeral.whole
  zero_alone : numeral.whole.head? = some '0' → numeral.whole = ['0']
  fraction : ∀ run ∈ numeral.fraction, DigitRun run
  exponent : ∀ power ∈ numeral.exponent, DigitRun power.2
  spelled : ∃ exponentText, ExponentText numeral.exponent exponentText ∧
    text = signText numeral.negative ++
      (numeral.whole ++ (fractionText numeral.fraction ++ exponentText))

end Numeral

/-! ## Reading -/

def EndsDigits (text : List Char) : Prop := ∀ c ∈ text.head?, c.isDigit = false

@[simp] theorem endsDigits_nil : EndsDigits [] := nofun

@[simp] theorem endsDigits_cons {c : Char} {rest : List Char} :
    EndsDigits (c :: rest) ↔ c.isDigit = false := by
  simp [EndsDigits]

theorem digits_append {run rest : List Char} (h : DigitRun run) (ends : EndsDigits rest)
    (atEnd : Fault) : digits atEnd (run ++ rest) = .ok (run, rest) := by
  have rest_taken : rest.takeWhile Char.isDigit = [] := by
    cases rest with
    | nil => rfl
    | cons c tail => simp [endsDigits_cons.mp ends]
  have rest_left : rest.dropWhile Char.isDigit = rest := by
    cases rest with
    | nil => rfl
    | cons c tail => simp [endsDigits_cons.mp ends]
  have taken : (run ++ rest).takeWhile Char.isDigit = run := by
    rw [List.takeWhile_append_of_pos h.digit, rest_taken, List.append_nil]
  have left : (run ++ rest).dropWhile Char.isDigit = rest := by
    rw [List.dropWhile_append_of_pos h.digit, rest_left]
  unfold digits
  simp only [taken, left, List.isEmpty_iff, h.ne_nil, if_false]

theorem wholeDigits_append {run rest : List Char} (h : DigitRun run)
    (zero_alone : run.head? = some '0' → run = ['0']) (ends : EndsDigits rest) (atEnd : Fault) :
    wholeDigits atEnd (run ++ rest) = .ok (run, rest) := by
  have no_zero : ¬(run.head? = some '0' ∧ run.length ≠ 1) := by
    rintro ⟨hz, hl⟩
    rw [zero_alone hz] at hl
    exact hl rfl
  simp only [wholeDigits, digits_append h ends, ok_bind, no_zero, if_false]

theorem fraction_append {fraction : Option (List Char)} {rest : List Char}
    (h : ∀ run ∈ fraction, DigitRun run) (ends : EndsDigits rest)
    (pointless : rest.head? ≠ some '.')
    (atEnd : Fault) :
    Json.fraction atEnd (Numeral.fractionText fraction ++ rest) = .ok (fraction, rest) := by
  cases fraction with
  | some run => simp [Numeral.fractionText, Json.fraction, digits_append (h run rfl) ends]
  | none =>
      cases rest with
      | nil => rfl
      | cons c tail =>
          have hc : c ≠ '.' := fun e => pointless (by rw [e]; rfl)
          simp [Numeral.fractionText, Json.fraction, hc]

theorem sign_digits {run : List Char} (h : DigitRun run) : sign run = (false, run) := by
  obtain ⟨c, rest, rfl⟩ := List.exists_cons_of_ne_nil h.ne_nil
  have digit := h.digit c List.mem_cons_self
  have minus : c ≠ '-' := by
    rintro rfl
    revert digit
    decide
  have plus : c ≠ '+' := by
    rintro rfl
    revert digit
    decide
  simp [sign, minus, plus]

theorem exponent_text {exponent : Option (Bool × List Char)} {text : List Char}
    (written : ExponentText exponent text) (h : ∀ power ∈ exponent, DigitRun power.2)
    (atEnd : Fault) : Json.exponent atEnd text = .ok (exponent, []) := by
  have whole_run {run : List Char} (hr : DigitRun run) : digits atEnd run = .ok (run, []) := by
    simpa using digits_append hr endsDigits_nil atEnd
  cases written with
  | none => rfl
  | minus letter => simp [Json.exponent, letter, sign, whole_run (h _ rfl)]
  | plus letter => simp [Json.exponent, letter, sign, whole_run (h _ rfl)]
  | plain letter => simp [Json.exponent, letter, sign_digits (h _ rfl), whole_run (h _ rfl)]

theorem ExponentText.endsDigits {exponent : Option (Bool × List Char)} {text : List Char}
    (h : ExponentText exponent text) : EndsDigits text := by
  cases h with
  | none => simp
  | minus letter => rcases letter with rfl | rfl <;> simp
  | plus letter => rcases letter with rfl | rfl <;> simp
  | plain letter => rcases letter with rfl | rfl <;> simp

theorem ExponentText.head_ne_point {exponent : Option (Bool × List Char)} {text : List Char}
    (h : ExponentText exponent text) : text.head? ≠ some '.' := by
  cases h with
  | none => simp
  | minus letter => rcases letter with rfl | rfl <;> simp
  | plus letter => rcases letter with rfl | rfl <;> simp
  | plain letter => rcases letter with rfl | rfl <;> simp

theorem minus_signText (negative : Bool) {run : List Char} (h : DigitRun run) (rest : List Char) :
    minus (Numeral.signText negative ++ (run ++ rest)) = (negative, run ++ rest) := by
  obtain ⟨c, tail, rfl⟩ := List.exists_cons_of_ne_nil h.ne_nil
  cases negative with
  | true => rfl
  | false =>
      have digit := h.digit c List.mem_cons_self
      have hc : c ≠ '-' := by
        rintro rfl
        revert digit
        decide
      simp [Numeral.signText, minus, hc]

theorem fractionText_endsDigits (fraction : Option (List Char)) {rest : List Char}
    (ends : EndsDigits rest) : EndsDigits (Numeral.fractionText fraction ++ rest) := by
  cases fraction with
  | none => exact ends
  | some run => simp [Numeral.fractionText]

/-- Behind the fraction only the exponent is left to read. -/
theorem numeral_eq_exponent {negative : Bool} {whole : List Char} {fraction : Option (List Char)}
    (whole_run : DigitRun whole) (zero_alone : whole.head? = some '0' → whole = ['0'])
    (fraction_run : ∀ run ∈ fraction, DigitRun run) {rest : List Char} (ends : EndsDigits rest)
    (pointless : rest.head? ≠ some '.') (atEnd : Fault) :
    numeral atEnd (Numeral.signText negative ++
        (whole ++ (Numeral.fractionText fraction ++ rest))) = (do
      let (exponent, rest) ← exponent atEnd rest
      .ok (⟨negative, whole, fraction, exponent⟩, rest)) := by
  simp only [numeral_eq, minus_signText _ whole_run,
    wholeDigits_append whole_run zero_alone (fractionText_endsDigits fraction ends),
    fraction_append fraction_run ends pointless, ok_bind]

/-- The reader takes a written number for its numeral. -/
theorem Numeral.Written.numeral_eq {written : Numeral} {text : List Char} (h : written.Written text)
    (atEnd : Fault) : numeral atEnd text = .ok (written, []) := by
  obtain ⟨exponentText, exponent_written, rfl⟩ := h.spelled
  rw [numeral_eq_exponent h.whole h.zero_alone h.fraction exponent_written.endsDigits
    exponent_written.head_ne_point, exponent_text exponent_written h.exponent, ok_bind]

theorem Numeral.Written.number_eq {written : Numeral} {text : List Char}
    (h : written.Written text) :
    number text = match written.value? with
      | some n => .ok (n, [])
      | none => .error .malformed := by
  rw [number, h.numeral_eq]
  rfl

theorem Numeral.Written.plain {run : List Char} (h : DigitRun run)
    (zero_alone : run.head? = some '0' → run = ['0']) :
    Numeral.Written ⟨false, run, none, none⟩ run :=
  ⟨h, zero_alone, nofun, nofun, [], .none, by simp [signText, fractionText]⟩

theorem Numeral.value?_plain {run : List Char} (h : InWideRange (natural run)) :
    value? ⟨false, run, none, none⟩ = some (.int (natural run) h) := by
  simp [value?_eq_int_iff, integer]

/-! ## Every numeral that is read is written so -/

section Spelled

variable {atEnd : Fault} {text rest : List Char}

theorem append_of_digits {run : List Char} (h : digits atEnd text = .ok (run, rest)) :
    DigitRun run ∧ text = run ++ rest := by
  simp only [digits] at h
  split at h
  next => cases h
  next some_digit =>
    cases h
    exact ⟨⟨by simpa using some_digit, fun c hc => List.mem_takeWhile_imp hc⟩,
      List.takeWhile_append_dropWhile.symm⟩

theorem append_of_wholeDigits {run : List Char} (h : wholeDigits atEnd text = .ok (run, rest)) :
    DigitRun run ∧ (run.head? = some '0' → run = ['0']) ∧ text = run ++ rest := by
  obtain ⟨⟨run', rest'⟩, read, made⟩ := bind_eq_ok_iff.mp h
  simp only at made
  split at made
  next => cases made
  next alone =>
    cases made
    obtain ⟨digits, text_eq⟩ := append_of_digits read
    refine ⟨digits, fun zero => ?_, text_eq⟩
    have one : run.length = 1 := by
      by_contra more
      exact alone ⟨zero, more⟩
    obtain ⟨c, rfl⟩ := List.length_eq_one_iff.mp one
    cases zero
    rfl

theorem append_of_fraction {part : Option (List Char)}
    (h : fraction atEnd text = .ok (part, rest)) :
    (∀ run ∈ part, DigitRun run) ∧ text = Numeral.fractionText part ++ rest := by
  unfold fraction at h
  split at h
  next tail =>
    obtain ⟨⟨run, after⟩, read, made⟩ := bind_eq_ok_iff.mp h
    cases made
    obtain ⟨digits, rfl⟩ := append_of_digits read
    exact ⟨fun _ hm => Option.some.inj hm ▸ digits, rfl⟩
  next =>
    cases h
    exact ⟨nofun, rfl⟩

theorem exists_exponentText {power : Option (Bool × List Char)}
    (h : exponent atEnd text = .ok (power, rest)) :
    (∀ signed ∈ power, DigitRun signed.2) ∧
      ∃ spelled, ExponentText power spelled ∧ text = spelled ++ rest := by
  cases text with
  | nil =>
      cases h
      exact ⟨nofun, [], .none, rfl⟩
  | cons letter tail =>
      simp only [exponent] at h
      split at h
      next is_letter =>
        obtain ⟨⟨run, after⟩, read, made⟩ := bind_eq_ok_iff.mp h
        cases made
        obtain ⟨digits, run_text⟩ := append_of_digits read
        refine ⟨fun _ hm => Option.some.inj hm ▸ digits, ?_⟩
        unfold sign at run_text ⊢
        split at run_text
        next => exact ⟨_, .minus is_letter, congrArg (letter :: '-' :: ·) run_text⟩
        next => exact ⟨_, .plus is_letter, congrArg (letter :: '+' :: ·) run_text⟩
        next => exact ⟨_, .plain is_letter, congrArg (letter :: ·) run_text⟩
      next =>
        cases h
        exact ⟨nofun, [], .none, rfl⟩

theorem signText_minus (text : List Char) :
    text = Numeral.signText (minus text).1 ++ (minus text).2 := by
  unfold minus
  split <;> rfl

theorem exists_written_of_numeral {written : Numeral}
    (h : numeral atEnd text = .ok (written, rest)) :
    ∃ spelled, written.Written spelled ∧ text = spelled ++ rest := by
  rw [numeral_eq] at h
  obtain ⟨⟨whole, behind⟩, read_whole, h_part⟩ := bind_eq_ok_iff.mp h
  obtain ⟨⟨part, after⟩, read_part, h_power⟩ := bind_eq_ok_iff.mp h_part
  obtain ⟨⟨power, last⟩, read_power, made⟩ := bind_eq_ok_iff.mp h_power
  cases made
  obtain ⟨digits, zero_alone, whole_text⟩ := append_of_wholeDigits read_whole
  obtain ⟨part_digits, rfl⟩ := append_of_fraction read_part
  obtain ⟨power_digits, spelled, exponent_text, rfl⟩ := exists_exponentText read_power
  refine ⟨_, ⟨digits, zero_alone, part_digits, power_digits, spelled, exponent_text, rfl⟩, ?_⟩
  calc
    text = Numeral.signText (minus text).1 ++ (minus text).2 := signText_minus text
    _ = _ := by simp [whole_text]

theorem exists_written_of_number {n : Number} (h : number text = .ok (n, rest)) :
    ∃ (written : Numeral) (spelled : List Char), written.Written spelled ∧
      written.value? = some n ∧ text = spelled ++ rest := by
  obtain ⟨⟨written, after⟩, read, made⟩ := bind_eq_ok_iff.mp h
  obtain ⟨spelled, is_written, rfl⟩ := exists_written_of_numeral read
  simp only at made
  split at made
  next stands =>
    cases made
    exact ⟨written, spelled, is_written, stands, rfl⟩
  next => cases made

end Spelled

/-! ## Cutting short -/

/-- A prefix of two texts in a row stops within the first or goes on into the second. -/
theorem prefix_append_cases {part front rest : List α} (h : part <+: front ++ rest) :
    (part <+: front ∧ part ≠ front) ∨ ∃ more, more <+: rest ∧ part = front ++ more := by
  rcases List.prefix_or_prefix_of_prefix h (List.prefix_append front rest) with hp | ⟨more, rfl⟩
  · by_cases he : part = front
    · exact .inr ⟨[], List.nil_prefix, by simp [he]⟩
    · exact .inl ⟨hp, he⟩
  · exact .inr ⟨more, (List.prefix_append_right_inj front).mp h, rfl⟩

theorem DigitRun.of_begins {part run : List Char} (h : DigitRun run) (hp : part <+: run)
    (ne_nil : part ≠ []) : DigitRun part :=
  ⟨ne_nil, fun c hc => h.digit c (hp.mem hc)⟩

/-- A numeral that is left when another one is cut short: its whole part is no longer, and its
exponent is shorter. -/
structure Numeral.Shortens (cut full : Numeral) : Prop where
  whole : cut.whole.length ≤ full.whole.length
  exponent : ∀ power ∈ cut.exponent, ∃ longer ∈ full.exponent, power.2.length < longer.2.length

theorem head_mem_of_begins {part text : List α} (hp : part <+: text) {c : α}
    (hc : c ∈ part.head?) : c ∈ text.head? := by
  obtain ⟨rest, rfl⟩ := hp
  rw [Option.mem_def] at hc ⊢
  rw [List.head?_append, hc]
  rfl

theorem eq_nil_of_prefix_singleton {c : α} {part : List α} (hp : part <+: [c]) (ne : part ≠ [c]) :
    part = [] := by
  rcases List.prefix_cons_iff.mp hp with he | ⟨rest, rfl, hr⟩
  · exact he
  · rw [List.prefix_nil.mp hr] at ne
    exact absurd rfl ne

/-- What a cut leaves of a run of digits. -/
theorem DigitRun.cut {run part : List Char} (h : DigitRun run) (hp : part <+: run)
    (ne : part ≠ run) : part = [] ∨ (DigitRun part ∧ part.length < run.length) := by
  by_cases empty : part = []
  · exact .inl empty
  · have shorter : part.length < run.length :=
      lt_of_le_of_ne hp.length_le fun same => ne (hp.eq_of_length same)
    exact .inr ⟨h.of_begins hp empty, shorter⟩

/-- What a cut leaves of an exponent: a text that is incomplete, or a shorter exponent. -/
def ExponentCut (exponent : Option (Bool × List Char)) (part : List Char) : Prop :=
  Json.exponent .truncated part = .error .truncated ∨
    ∃ cut, ExponentText cut part ∧ (∀ power ∈ cut, DigitRun power.2) ∧
      ∀ power ∈ cut, ∃ longer ∈ exponent, power.2.length < longer.2.length

theorem exponentCut_of_run (signed : List Char) {negative : Bool} {letter : Char}
    {run part : List Char}
    (hletter : letter = 'e' ∨ letter = 'E')
    (sign_eq : ∀ rest, rest = [] ∨ DigitRun rest → sign (signed ++ rest) = (negative, rest))
    (spelled : ExponentText (some (negative, part)) (letter :: (signed ++ part)))
    (hrun : DigitRun run) (hp : part <+: run) (ne : part ≠ run) :
    ExponentCut (some (negative, run)) (letter :: (signed ++ part)) := by
  rcases hrun.cut hp ne with rfl | ⟨part_run, shorter⟩
  · have nothing := sign_eq [] (.inl rfl)
    rw [List.append_nil] at nothing ⊢
    exact .inl (by simp [exponent, hletter, nothing, digits])
  · refine .inr ⟨some (negative, part), spelled, ?_, ?_⟩
    · rintro _ ⟨⟩
      exact part_run
    · rintro _ ⟨⟩
      exact ⟨_, rfl, shorter⟩

theorem exponent_cut {exponent : Option (Bool × List Char)} {text part : List Char}
    (written : ExponentText exponent text) (h : ∀ power ∈ exponent, DigitRun power.2)
    (hp : part <+: text) (ne : part ≠ text) : ExponentCut exponent part := by
  by_cases empty : part = []
  · subst empty
    exact .inr ⟨none, .none, nofun, nofun⟩
  cases written with
  | none => exact absurd (List.prefix_nil.mp hp) empty
  | minus hletter =>
      rcases List.prefix_cons_iff.mp hp with he | ⟨after_letter, rfl, hsigned⟩
      · exact absurd he empty
      rcases List.prefix_cons_iff.mp hsigned with rfl | ⟨after_sign, rfl, hrun⟩
      · exact .inl (by simp [Json.exponent, hletter, sign, digits])
      · exact exponentCut_of_run ['-'] hletter (fun _ _ => rfl) (.minus hletter)
          (h _ rfl) hrun (fun same => ne (by rw [same]))
  | plus hletter =>
      rcases List.prefix_cons_iff.mp hp with he | ⟨after_letter, rfl, hsigned⟩
      · exact absurd he empty
      rcases List.prefix_cons_iff.mp hsigned with rfl | ⟨after_sign, rfl, hrun⟩
      · exact .inl (by simp [Json.exponent, hletter, sign, digits])
      · exact exponentCut_of_run ['+'] hletter (fun _ _ => rfl) (.plus hletter)
          (h _ rfl) hrun (fun same => ne (by rw [same]))
  | plain hletter =>
      rcases List.prefix_cons_iff.mp hp with he | ⟨after_letter, rfl, hrun⟩
      · exact absurd he empty
      refine exponentCut_of_run [] hletter (fun rest hr => ?_) (.plain hletter)
        (h _ rfl) hrun (fun same => ne (by rw [same]))
      rcases hr with rfl | hr
      · rfl
      · exact sign_digits hr

theorem eq_nil_of_signText_cut {negative : Bool} {part : List Char}
    (hp : part <+: Numeral.signText negative) (ne : part ≠ Numeral.signText negative) :
    part = [] := by
  cases negative with
  | true => exact eq_nil_of_prefix_singleton hp ne
  | false => exact List.prefix_nil.mp hp

theorem fractionText_cut {fraction : Option (List Char)} {part : List Char}
    (h : ∀ run ∈ fraction, DigitRun run) (hp : part <+: Numeral.fractionText fraction)
    (ne : part ≠ Numeral.fractionText fraction) :
    part = ['.'] ∨
      ∃ cut : Option (List Char), (∀ run ∈ cut, DigitRun run) ∧
        part = Numeral.fractionText cut := by
  cases fraction with
  | none => exact absurd (List.prefix_nil.mp hp) ne
  | some run =>
      rcases List.prefix_cons_iff.mp hp with rfl | ⟨digits_left, rfl, hdigits⟩
      · exact .inr ⟨none, nofun, rfl⟩
      rcases (h run rfl).cut hdigits (fun same => ne (by rw [same]; rfl)) with
        rfl | ⟨left_run, -⟩
      · exact .inl rfl
      · refine .inr ⟨some digits_left, ?_, rfl⟩
        rintro _ ⟨⟩
        exact left_run

namespace Numeral.Written

variable {written : Numeral} {text part : List Char}

theorem cut_whole (h : written.Written text) (hp : part <+: written.whole)
    (ne : part ≠ written.whole) :
    numeral .truncated (signText written.negative ++ part) = .error .truncated ∨
      ∃ cut : Numeral, cut.Written (signText written.negative ++ part) ∧ cut.Shortens written := by
  rcases h.whole.cut hp ne with rfl | ⟨whole_run, shorter⟩
  · left
    cases written.negative <;> rfl
  have zero_alone : part.head? = some '0' → part = ['0'] := by
    intro hz
    have whole_zero : written.whole.head? = some '0' := head_mem_of_begins hp hz
    rw [h.zero_alone whole_zero] at hp ne
    exact absurd (eq_nil_of_prefix_singleton hp ne) whole_run.ne_nil
  exact .inr ⟨⟨written.negative, part, none, none⟩,
    ⟨whole_run, zero_alone, nofun, nofun, [], .none, by simp [fractionText]⟩,
    ⟨shorter.le, nofun⟩⟩

theorem cut_fraction (h : written.Written text) (hp : part <+: fractionText written.fraction)
    (ne : part ≠ fractionText written.fraction) :
    numeral .truncated (signText written.negative ++ (written.whole ++ part)) =
        .error .truncated ∨
      ∃ cut : Numeral, cut.Written (signText written.negative ++ (written.whole ++ part)) ∧
        cut.Shortens written := by
  rcases fractionText_cut h.fraction hp ne with rfl | ⟨cut, cut_digits, rfl⟩
  · left
    have point_ends : EndsDigits ['.'] := by simp
    simp only [Json.numeral_eq, minus_signText _ h.whole,
      wholeDigits_append h.whole h.zero_alone point_ends, ok_bind]
    rfl
  · exact .inr ⟨⟨written.negative, written.whole, cut, none⟩,
      ⟨h.whole, h.zero_alone, cut_digits, nofun, [], .none, by simp⟩, ⟨le_rfl, nofun⟩⟩

theorem cut_exponent (h : written.Written text) {exponentText : List Char}
    (exponent_written : ExponentText written.exponent exponentText) (hp : part <+: exponentText)
    (ne : part ≠ exponentText) :
    numeral .truncated (signText written.negative ++
        (written.whole ++ (fractionText written.fraction ++ part))) = .error .truncated ∨
      ∃ cut : Numeral, cut.Written (signText written.negative ++
        (written.whole ++ (fractionText written.fraction ++ part))) ∧ cut.Shortens written := by
  rcases exponent_cut exponent_written h.exponent hp ne with
    incomplete | ⟨cut, cut_written, cut_run, shorter⟩
  · left
    have ends : EndsDigits part := fun c hc =>
      exponent_written.endsDigits c (head_mem_of_begins hp hc)
    have pointless : part.head? ≠ some '.' := fun hc =>
      exponent_written.head_ne_point (head_mem_of_begins hp hc)
    rw [numeral_eq_exponent h.whole h.zero_alone h.fraction ends pointless, incomplete, error_bind]
  · exact .inr ⟨⟨written.negative, written.whole, written.fraction, cut⟩,
      ⟨h.whole, h.zero_alone, h.fraction, cut_run, part, cut_written, rfl⟩, ⟨le_rfl, shorter⟩⟩

/-- A written number that is cut short is incomplete or a shorter number. -/
theorem cut (h : written.Written text) (hp : part <+: text) (ne : part ≠ text) :
    numeral .truncated part = .error .truncated ∨
      ∃ cut : Numeral, cut.Written part ∧ cut.Shortens written := by
  obtain ⟨exponentText, exponent_written, rfl⟩ := h.spelled
  rcases prefix_append_cases hp with ⟨hsign, hne⟩ | ⟨after_sign, hsign, rfl⟩
  · rw [eq_nil_of_signText_cut hsign hne]
    exact .inl rfl
  rcases prefix_append_cases hsign with ⟨hwhole, hne⟩ | ⟨after_whole, hwhole, rfl⟩
  · exact h.cut_whole hwhole hne
  rcases prefix_append_cases hwhole with ⟨hfraction, hne⟩ | ⟨after_fraction, hexponent, rfl⟩
  · exact h.cut_fraction hfraction hne
  · exact h.cut_exponent exponent_written hexponent fun same => ne (by rw [same])

end Numeral.Written

end GameCatalog.Json
