import GameCatalog.Proofs.Json.Reads

/-!
# Reading on when more text follows

A reader that stops before the end of a text has seen what made it stop, so that it stops there
whatever follows the text. Only a number can stop because the text does; the bounds that a reader
takes from its text may grow with it.
-/

namespace GameCatalog.Json

/-- Where `reader` stops with text left, `wider` stops too when more text follows. -/
def CarriesTo (reader wider : Reader α) : Prop :=
  ∀ text left value, reader text = .ok (value, left) →
    left <:+ text ∧ (left ≠ [] → ∀ more, wider (text ++ more) = .ok (value, left ++ more))

/-- Where the reader stops with text left, it stops too when more text follows. -/
abbrev Continues (reader : Reader α) : Prop := CarriesTo reader reader

theorem dropBlanks_more {text rest : List Char} {c : Char} (h : dropBlanks text = c :: rest)
    (more : List Char) : dropBlanks (text ++ more) = c :: (rest ++ more) := by
  rw [dropBlanks, List.dropWhile_append, ← dropBlanks, h]
  rfl

theorem isBlank_of_dropBlanks {text rest : List Char} {c : Char} (h : dropBlanks text = c :: rest) :
    isBlank c = false := by
  have first := List.head?_dropWhile_not isBlank text
  rw [← dropBlanks, h] at first
  exact first

namespace CarriesTo

variable {reader wider : Reader α}

theorem pure (value : α) :
    CarriesTo (fun text => .ok (value, text)) (fun text => .ok (value, text)) := by
  intro text left other h
  cases h
  exact ⟨List.suffix_rfl, fun _ _ => rfl⟩

theorem fault (fault : Fault) (wider : Reader α) : CarriesTo (fun _ => .error fault) wider :=
  nofun

theorem bind (h : CarriesTo reader wider) {f g : α × List Char → Except Fault (β × List Char)}
    (after : ∀ value, CarriesTo (fun text => f (value, text)) (fun text => g (value, text))) :
    CarriesTo (fun text => reader text >>= f) (fun text => wider text >>= g) := by
  intro text left result hr
  obtain ⟨⟨value, middle⟩, hfirst, hrest⟩ := bind_eq_ok_iff.mp hr
  obtain ⟨first_suffix, first_carries⟩ := h _ _ _ hfirst
  obtain ⟨rest_suffix, rest_carries⟩ := after value _ _ _ hrest
  refine ⟨rest_suffix.trans first_suffix, fun nonempty more => ?_⟩
  have middle_nonempty : middle ≠ [] := by
    rintro rfl
    exact nonempty (List.suffix_nil.mp rest_suffix)
  simp only [first_carries middle_nonempty, ok_bind, rest_carries nonempty]

theorem map (h : CarriesTo reader wider) (f : α → β) :
    CarriesTo
      (fun text => do
        let (value, rest) ← reader text
        .ok (f value, rest))
      (fun text => do
        let (value, rest) ← wider text
        .ok (f value, rest)) :=
  h.bind fun value => .pure (f value)

theorem ite {condition : Prop} [Decidable condition] {other otherWider : Reader α}
    (h : condition → CarriesTo reader wider) (h' : ¬condition → CarriesTo other otherWider) :
    CarriesTo (fun text => if condition then reader text else other text)
      (fun text => if condition then wider text else otherWider text) := by
  by_cases hc : condition
  · simpa only [hc, if_true] using h hc
  · simpa only [hc, if_false] using h' hc

theorem blanks (h : CarriesTo reader wider) {fault : Fault} (nothing : reader [] = .error fault) :
    CarriesTo (fun text => reader (dropBlanks text)) (fun text => wider (dropBlanks text)) := by
  intro text left value hr
  have nonempty : dropBlanks text ≠ [] := by
    intro empty
    simp only [empty, nothing] at hr
    cases hr
  obtain ⟨suffix, carries⟩ := h _ _ _ hr
  refine ⟨suffix.trans (List.dropWhile_suffix isBlank), fun hl more => ?_⟩
  have dropped : dropBlanks (text ++ more) = dropBlanks text ++ more := by
    rw [dropBlanks, List.dropWhile_append, ← dropBlanks, if_neg (by simpa using nonempty)]
  simp only [dropped, carries hl]

/-- It is enough to look behind each first character. -/
theorem uncons {fault : Fault} (nothing : reader [] = .error fault)
    (h : ∀ c, CarriesTo (fun rest => reader (c :: rest)) (fun rest => wider (c :: rest))) :
    CarriesTo reader wider := by
  intro text left value hr
  cases text with
  | nil =>
      rw [nothing] at hr
      cases hr
  | cons c rest =>
      obtain ⟨suffix, carries⟩ := h c _ _ _ hr
      exact ⟨suffix.trans (List.suffix_cons c rest), carries⟩

theorem ofFirst {fault : Fault} {next nextWider : Char → Reader α}
    (h : ∀ c, CarriesTo (next c) (nextWider c)) :
    CarriesTo
      (fun text => match text with
        | [] => .error fault
        | c :: rest => next c rest)
      (fun text => match text with
        | [] => .error fault
        | c :: rest => nextWider c rest) :=
  uncons rfl h

end CarriesTo

/-! ## Words and numbers -/

theorem continues_expect (word : List Char) : Continues (expect word) := by
  induction word with
  | nil => exact .pure ()
  | cons c word ih =>
      intro text left value hr
      cases text with
      | nil => cases hr
      | cons d rest =>
          by_cases same : c = d
          · simp only [expect, same, if_true] at hr
            obtain ⟨suffix, carries⟩ := ih _ _ _ hr
            refine ⟨suffix.trans (List.suffix_cons d rest), fun hl more => ?_⟩
            simp only [List.cons_append, expect, same, if_true, carries hl]
          · simp only [expect, same, if_false] at hr
            cases hr

theorem continues_symbol (c : Char) : Continues (symbol c) :=
  (continues_expect [c]).blanks rfl

theorem continues_digits (atEnd : Fault) : Continues (digits atEnd) := by
  intro text left run hr
  unfold digits at hr
  simp only at hr
  split at hr
  · cases hr
  next nonempty =>
    cases hr
    refine ⟨List.dropWhile_suffix _, fun hl more => ?_⟩
    have shorter : (text.takeWhile Char.isDigit).length ≠ text.length := by
      intro same
      have all :=
        congrArg List.length (List.takeWhile_append_dropWhile (p := Char.isDigit) (l := text))
      rw [List.length_append, same] at all
      exact hl (List.length_eq_zero_iff.mp (by omega))
    have taken : (text ++ more).takeWhile Char.isDigit = text.takeWhile Char.isDigit := by
      rw [List.takeWhile_append, if_neg shorter]
    have dropped : (text ++ more).dropWhile Char.isDigit = text.dropWhile Char.isDigit ++ more := by
      rw [List.dropWhile_append, if_neg (by simpa using hl)]
    unfold digits
    simp only [taken, dropped, nonempty, Bool.false_eq_true, if_false]

theorem continues_wholeDigits (atEnd : Fault) :
    Continues (wholeDigits atEnd) :=
  (continues_digits atEnd).bind fun run => .ite (fun _ => .fault _ _) (fun _ => .pure run)

theorem continues_fraction (atEnd : Fault) : Continues (fraction atEnd) := by
  intro text left run hr
  cases text with
  | nil =>
      cases hr
      exact ⟨List.suffix_rfl, fun hl => absurd rfl hl⟩
  | cons c rest =>
      by_cases point : c = '.'
      · subst point
        obtain ⟨suffix, carries⟩ := (continues_digits atEnd).map some _ _ _ hr
        exact ⟨suffix.trans (List.suffix_cons _ rest), carries⟩
      · have pointless : ∀ tail, fraction atEnd (c :: tail) = .ok (none, c :: tail) := by
          simp [fraction, point]
        rw [pointless] at hr
        cases hr
        exact ⟨List.suffix_rfl, fun _ more => pointless (rest ++ more)⟩

theorem sign_suffix (text : List Char) : (sign text).2 <:+ text := by
  unfold sign
  split
  · exact List.suffix_cons _ _
  · exact List.suffix_cons _ _
  · exact List.suffix_rfl

theorem continues_exponent (atEnd : Fault) : Continues (exponent atEnd) := by
  intro text left power hr
  cases text with
  | nil =>
      cases hr
      exact ⟨List.suffix_rfl, fun hl => absurd rfl hl⟩
  | cons c rest =>
      by_cases letter : c = 'e' ∨ c = 'E'
      · simp only [exponent, letter, if_true] at hr
        obtain ⟨suffix, carries⟩ :=
          (continues_digits atEnd).map (fun run => some ((sign rest).1, run))
          _ _ _ hr
        refine ⟨(suffix.trans (sign_suffix rest)).trans (List.suffix_cons c rest),
          fun hl more => ?_⟩
        have nonempty : rest ≠ [] := by
          rintro rfl
          exact hl (List.suffix_nil.mp suffix)
        simpa only [List.cons_append, exponent, letter, if_true, sign_append nonempty] using
          carries hl more
      · simp only [exponent, letter, if_false] at hr
        cases hr
        exact ⟨List.suffix_rfl, fun _ more => by simp [exponent, letter]⟩

theorem minus_suffix (text : List Char) : (minus text).2 <:+ text := by
  unfold minus
  split
  · exact List.suffix_cons _ _
  · exact List.suffix_rfl

theorem continues_unsigned (atEnd : Fault) (negative : Bool) :
    Continues (fun text => do
      let (whole, rest) ← wholeDigits atEnd text
      let (fraction, rest) ← fraction atEnd rest
      let (exponent, rest) ← exponent atEnd rest
      .ok ((⟨negative, whole, fraction, exponent⟩ : Numeral), rest)) :=
  (continues_wholeDigits atEnd).bind fun whole =>
    (continues_fraction atEnd).bind fun fraction =>
      (continues_exponent atEnd).map (Numeral.mk negative whole fraction)

theorem continues_numeral (atEnd : Fault) : Continues (numeral atEnd) := by
  intro text left written hr
  rw [numeral_eq] at hr
  obtain ⟨suffix, carries⟩ := continues_unsigned _ _ _ _ _ hr
  refine ⟨suffix.trans (minus_suffix text), fun hl more => ?_⟩
  have nonempty : text ≠ [] := by
    rintro rfl
    exact hl (List.suffix_nil.mp suffix)
  rw [numeral_eq, minus_append nonempty]
  exact carries hl more

theorem continues_number : Continues number := by
  refine (continues_numeral .truncated).bind fun written => ?_
  cases hv : written.value? with
  | some n => simpa only [hv] using CarriesTo.pure n
  | none => simpa only [hv] using CarriesTo.fault .malformed _

/-! ## Strings -/

theorem continues_fourHexDigits : Continues fourHexDigits := by
  intro text left unit hr
  unfold fourHexDigits at hr
  split at hr
  · cases hr
  next enough =>
    split at hr
    next a b c d rest =>
      split at hr
      next ha hb hc hd =>
        cases hr
        refine ⟨⟨[a, b, c, d], rfl⟩, fun _ more => ?_⟩
        have enough_more : ¬byteCount ((a :: b :: c :: d :: (left ++ more)).take 4) < 4 := enough
        unfold fourHexDigits
        simp only [List.cons_append, enough_more, if_false, ha, hb, hc, hd]
      next => cases hr
    next => cases hr

theorem continues_unicodeEscape : Continues unicodeEscape :=
  continues_fourHexDigits.bind fun _ =>
    .ite (fun _ => .fault _ _) fun _ =>
      .ite
        (fun _ => (continues_expect _).bind fun _ => continues_fourHexDigits.bind fun _ =>
          .ite (fun _ => .pure _) (fun _ => .fault _ _))
        (fun _ => .pure _)

theorem continues_escape {unicode : Reader Char} (h : Continues unicode) :
    Continues (escape unicode) := by
  refine CarriesTo.uncons rfl fun c => .ite (fun _ => h) fun _ => ?_
  cases hd : letterEscape? c with
  | some d => exact .pure d
  | none => exact .fault .malformed _

/-- The bound on the steps may grow with the text. -/
theorem carries_stringChars {unicode : Reader Char} (h : Continues unicode)
    (bound extra held : List Char) :
    CarriesTo (stringChars unicode bound held) (stringChars unicode (bound ++ extra) held) := by
  induction bound generalizing held with
  | nil =>
      intro text left chars hr
      cases text <;> cases hr
  | cons b bound ih =>
      refine CarriesTo.uncons rfl fun c => ?_
      refine .ite (fun _ => .pure held.reverse) fun _ => ?_
      refine .ite (fun _ => ?_) fun _ => ?_
      · exact (continues_escape h).bind fun d => ih (d :: held)
      · exact .ite (fun _ => .fault .malformed _) fun _ => ih (c :: held)

theorem continues_stringChars {unicode : Reader Char} (h : Continues unicode) :
    Continues (fun text => stringChars unicode text [] text) := by
  intro text left chars hr
  obtain ⟨suffix, -⟩ := carries_stringChars h text [] [] _ _ _ hr
  exact ⟨suffix, fun hl more => (carries_stringChars h text more [] _ _ _ hr).2 hl more⟩

theorem continues_string : Continues string :=
  (continues_stringChars continues_unicodeEscape).map String.ofList

theorem continues_looseString : Continues looseString :=
  continues_stringChars (continues_fourHexDigits.map fun _ => '\ufffd')

/-! ## The start of a value -/

theorem continues_leadWith {number : Reader ν} {string : Reader σ} (numbers : Continues number)
    (strings : Continues string) : Continues (leadWith number string) := by
  intro text left start hr
  cases dropped : dropBlanks text with
  | nil =>
      simp only [leadWith, dropped] at hr
      cases hr
  | cons c rest =>
      have begins : c :: rest <:+ text := dropped ▸ List.dropWhile_suffix isBlank
      have notBlank := isBlank_of_dropBlanks dropped
      have lead_eq : ∀ more, leadWith number string (text ++ more) =
          leadWith number string (c :: (rest ++ more)) := by
        intro more
        simp only [leadWith, dropBlanks_more dropped, dropBlanks_cons notBlank]
      have lead_text := lead_eq []
      rw [List.append_nil, List.append_nil] at lead_text
      rw [lead_text] at hr
      simp only [lead_eq]
      by_cases starts : c = '-' ∨ c.isDigit = true
      · obtain ⟨-, -, hq, ha, ho, hn, ht, hf⟩ := startsNumber starts
        have number_eq : ∀ rest, leadWith number string (c :: rest) = (do
            let (n, rest) ← number (c :: rest)
            .ok (.num n, rest)) := by
          intro rest
          simp only [leadWith, dropBlanks_cons notBlank, hq, ha, ho, hn, ht, hf, starts, if_true,
            if_false]
        simp only [number_eq] at hr ⊢
        obtain ⟨suffix, carries⟩ := numbers.map Lead.num _ _ _ hr
        exact ⟨suffix.trans begins, carries⟩
      · have behind : Continues (fun rest => leadWith number string (c :: rest)) := by
          simp only [leadWith, dropBlanks_cons notBlank, starts, if_false]
          refine .ite (fun _ => strings.bind fun s => .pure (Lead.str s)) fun _ => ?_
          refine .ite (fun _ => .pure Lead.array) fun _ => ?_
          refine .ite (fun _ => .pure Lead.object) fun _ => ?_
          refine .ite (fun _ => (continues_expect _).bind fun _ => .pure Lead.null) fun _ => ?_
          refine .ite (fun _ => (continues_expect _).bind fun _ => .pure (Lead.bool true))
            fun _ => ?_
          refine .ite (fun _ => (continues_expect _).bind fun _ => .pure (Lead.bool false))
            fun _ => ?_
          exact .fault .malformed _
        obtain ⟨suffix, carries⟩ := behind _ _ _ hr
        exact ⟨(suffix.trans (List.suffix_cons c rest)).trans begins, carries⟩

theorem continues_lead : Continues lead := continues_leadWith continues_number continues_string

theorem continues_looseLead : Continues looseLead :=
  continues_leadWith (continues_numeral .malformed) continues_looseString

/-! ## Containers -/

section Series

variable {last : Char} {step wider : σ → Reader σ}
  (carries : ∀ state, CarriesTo (step state) (wider state))

include carries

theorem settles_items {bound text left : List Char} {state final : σ}
    (h : items last step bound state text = .ok (final, left)) :
    last :: left <:+ text ∧ ∀ extra more,
      items last wider (bound ++ extra) state (text ++ more) = .ok (final, left ++ more) := by
  induction bound generalizing state text with
  | nil => cases h
  | cons b bound ih =>
      obtain ⟨⟨next, after⟩, hstep, h⟩ := bind_eq_ok_iff.mp h
      obtain ⟨step_suffix, step_carries⟩ := carries state _ _ _ hstep
      simp only at h
      split at h
      · cases h
      next c rest dropped =>
        have after_nonempty : after ≠ [] := by
          rintro rfl
          cases dropped
        have rest_suffix : c :: rest <:+ text :=
          dropped ▸ (List.dropWhile_suffix isBlank).trans step_suffix
        split at h
        next comma =>
          obtain ⟨suffix, again⟩ := ih h
          refine ⟨(suffix.trans (List.suffix_cons c rest)).trans rest_suffix, fun extra more => ?_⟩
          simp only [List.cons_append, items, step_carries after_nonempty, ok_bind,
            dropBlanks_more dropped, comma, if_true, again]
        next comma =>
          split at h
          next bracket =>
            cases h
            subst bracket
            refine ⟨rest_suffix, fun extra more => ?_⟩
            simp only [List.cons_append, items, step_carries after_nonempty, ok_bind,
              dropBlanks_more dropped, comma, if_true, if_false]
          next => cases h

theorem settles_series {start final : σ} {text left : List Char}
    (h : series last step start text = .ok (final, left)) :
    last :: left <:+ text ∧ ∀ more,
      series last wider start (text ++ more) = .ok (final, left ++ more) := by
  unfold series at h
  split at h
  · cases h
  next c rest dropped =>
    split at h
    next bracket =>
      cases h
      refine ⟨bracket ▸ dropped ▸ List.dropWhile_suffix isBlank, fun more => ?_⟩
      simp only [series, dropBlanks_more dropped, bracket, if_true]
    next bracket =>
      obtain ⟨suffix, again⟩ := settles_items carries h
      refine ⟨suffix, fun more => ?_⟩
      simp only [series, dropBlanks_more dropped, bracket, if_false, again]

theorem carries_series (start : σ) :
    CarriesTo (series last step start) (series last wider start) := by
  intro text left final h
  obtain ⟨suffix, again⟩ := settles_series carries h
  exact ⟨(List.suffix_cons last left).trans suffix, fun _ => again⟩

end Series

theorem continues_memberName {string : Reader σ} (strings : Continues string) :
    Continues (memberName string) :=
  (CarriesTo.ofFirst fun _ => .ite (fun _ => strings) fun _ => .fault .malformed _).blanks rfl

theorem carries_member {string : Reader σ} (strings : Continues string) {value wider : Reader α}
    (values : CarriesTo value wider) : CarriesTo (member string value) (member string wider) :=
  (continues_memberName strings).bind fun name =>
    (continues_symbol ':').bind fun _ => values.map (name, ·)

theorem continues_array {value : Reader α} (values : Continues value) : Continues (array value) :=
  (carries_series (fun held => values.map (· :: held)) []).map List.reverse

theorem continues_object {value : Reader Value} (values : Continues value) :
    Continues (object value) := by
  unfold object
  exact carries_series (fun held => (carries_member continues_string values).map
    fun member => Members.set member.1 member.2 held) []

/-! ## Values -/

theorem continues_valueWith {inner : Option (Reader Value)}
    (values : ∀ reader ∈ inner, Continues reader) : Continues (valueWith inner) := by
  refine continues_lead.bind fun start => ?_
  cases start with
  | null => exact .pure Value.null
  | bool b => exact .pure (Value.bool b)
  | num n => exact .pure (Value.num n)
  | str s => exact .pure (Value.str s)
  | array =>
      cases inner with
      | none => exact .fault .malformed _
      | some reader => exact (continues_array (values reader rfl)).map Value.arr
  | object =>
      cases inner with
      | none => exact .fault .malformed _
      | some reader => exact (continues_object (values reader rfl)).map Value.obj

theorem continues_value (depth : Nat) : Continues (value depth) := by
  induction depth with
  | zero => exact continues_valueWith nofun
  | succ depth ih =>
      refine continues_valueWith ?_
      rintro _ ⟨⟩
      exact ih

/-- The bound on the nesting may grow with the text. -/
theorem carries_skipWithin (bound extra : List Char) :
    CarriesTo (skipWithin bound) (skipWithin (bound ++ extra)) := by
  induction bound with
  | nil => exact .fault .truncated _
  | cons b bound ih =>
      refine continues_looseLead.bind fun start => ?_
      cases start with
      | array => exact carries_series (fun _ => ih) ()
      | object =>
          exact carries_series
            (fun _ => (carries_member continues_looseString ih).map fun _ => ()) ()
      | _ => exact .pure ()

theorem continues_skip : Continues skip := by
  intro text left value hr
  obtain ⟨suffix, -⟩ := carries_skipWithin text [] _ _ _ hr
  exact ⟨suffix, fun hl more => (carries_skipWithin text more _ _ _ hr).2 hl more⟩

end GameCatalog.Json
