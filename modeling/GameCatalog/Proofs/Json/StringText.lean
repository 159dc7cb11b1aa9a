import GameCatalog.Proofs.Json.Reads

/-!
# Written strings

How a string is written between quotes, with or without escapes. Its reader takes every such text
for the string that it spells, and takes nothing else.
-/

namespace GameCatalog.Json

/-- Four hexadecimal digits and the number that they make up. -/
inductive HexUnit : List Char → Nat → Prop where
  | digits {a b c d : Char} {p q r s : Nat} (ha : Text.hexValue? a = some p)
      (hb : Text.hexValue? b = some q) (hc : Text.hexValue? c = some r)
      (hd : Text.hexValue? d = some s) :
      HexUnit [a, b, c, d] (((p * 16 + q) * 16 + r) * 16 + s)

/-- The ways in which characters are written between quotes: as they are, escaped by a letter, or
by their code point, one beyond the first 65536 as a pair of surrogates. -/
inductive StringChars : List Char → List Char → Prop where
  | nil : StringChars [] []
  | plain {c : Char} {chars text : List Char} (quote : c ≠ '"') (backslash : c ≠ '\\')
      (printable : 0x20 ≤ c.toNat) (rest : StringChars chars text) :
      StringChars (c :: chars) (c :: text)
  | letter {c letter : Char} {chars text : List Char} (stands : letterEscape? letter = some c)
      (rest : StringChars chars text) : StringChars (c :: chars) ('\\' :: letter :: text)
  | single {unit : Nat} {digits chars text : List Char} (hex : HexUnit digits unit)
      (leading : Text.isLeadingSurrogate unit = false)
      (trailing : Text.isTrailingSurrogate unit = false) (rest : StringChars chars text) :
      StringChars (Char.ofNat unit :: chars) ('\\' :: 'u' :: (digits ++ text))
  | pair {first second : Nat} {digits more chars text : List Char} (hex : HexUnit digits first)
      (hex_more : HexUnit more second) (leading : Text.isLeadingSurrogate first = true)
      (trailing : Text.isTrailingSurrogate second = true) (rest : StringChars chars text) :
      StringChars (Text.pairedChar first second :: chars)
        ('\\' :: 'u' :: (digits ++ '\\' :: 'u' :: (more ++ text)))

def StringText (text : String) (quoted : List Char) : Prop :=
  ∃ inside, StringChars text.toList inside ∧ quoted = '"' :: (inside ++ ['"'])

/-! ## Reading -/

theorem fourHexDigits_unit {digits : List Char} {unit : Nat} (h : HexUnit digits unit)
    (rest : List Char) : fourHexDigits (digits ++ rest) = .ok (unit, rest) := by
  cases h with
  | @digits a b c d p q r s ha hb hc hd =>
      have enough : ¬byteCount [a, b, c, d] < 4 := by
        have := a.utf8Size_pos
        have := b.utf8Size_pos
        have := c.utf8Size_pos
        have := d.utf8Size_pos
        simp only [byteCount]
        omega
      unfold fourHexDigits
      simp [enough, ha, hb, hc, hd]

theorem letterEscape?_u : letterEscape? 'u' = none := by decide

theorem escape_letter {c letter : Char} (stands : letterEscape? letter = some c)
    (unicode : Reader Char) (rest : List Char) :
    escape unicode ([letter] ++ rest) = .ok (c, rest) := by
  have not_u : letter ≠ 'u' := by
    rintro rfl
    rw [letterEscape?_u] at stands
    cases stands
  simp [escape, not_u, stands]

/-- The text between quotes is read for these characters, whatever was read before and whatever
follows the closing quote. -/
structure ReadsChars (unicode : Reader Char) (inside chars : List Char) : Prop where
  read : ∀ {bound : List Char}, inside.length < bound.length → ∀ held rest : List Char,
    stringChars unicode bound held (inside ++ '"' :: rest) = .ok (held.reverse ++ chars, rest)

namespace ReadsChars

variable {unicode : Reader Char} {inside chars : List Char} {c : Char}

theorem nil : ReadsChars unicode [] [] := by
  refine ⟨fun {bound} enough held rest => ?_⟩
  cases bound with
  | nil => cases enough
  | cons b bound => simp [stringChars]

theorem plain (quote : c ≠ '"') (backslash : c ≠ '\\') (printable : 0x20 ≤ c.toNat)
    (h : ReadsChars unicode inside chars) : ReadsChars unicode (c :: inside) (c :: chars) := by
  refine ⟨fun {bound} enough held rest => ?_⟩
  cases bound with
  | nil => cases enough
  | cons b bound =>
      rw [List.length_cons, List.length_cons] at enough
      simp [stringChars, quote, backslash, Nat.not_lt.mpr printable,
        h.read (Nat.lt_of_succ_lt_succ enough)]

theorem escaped (h : ReadsChars unicode inside chars) (text : List Char)
    (read : ∀ rest, escape unicode (text ++ rest) = .ok (c, rest)) :
    ReadsChars unicode ('\\' :: (text ++ inside)) (c :: chars) := by
  refine ⟨fun {bound} enough held rest => ?_⟩
  cases bound with
  | nil => cases enough
  | cons b bound =>
      simp only [List.length_cons, List.length_append] at enough
      have enough_after : inside.length < bound.length := by omega
      simp [stringChars, read, h.read enough_after]

end ReadsChars

theorem StringChars.readsChars {chars inside : List Char} (h : StringChars chars inside) :
    ReadsChars unicodeEscape inside chars := by
  induction h with
  | nil => exact .nil
  | plain quote backslash printable _ ih => exact ih.plain quote backslash printable
  | letter stands _ ih => exact ih.escaped [_] (escape_letter stands unicodeEscape)
  | @single unit digits chars text hex leading trailing _ ih =>
      refine ih.escaped ('u' :: digits) fun rest => ?_
      simp [escape, unicodeEscape, fourHexDigits_unit hex, leading, trailing]
  | @pair first second digits more chars text hex hex_more leading trailing _ ih =>
      have first_single : Text.isTrailingSurrogate first = false := by
        simp only [Text.isLeadingSurrogate, Text.isTrailingSurrogate, Bool.and_eq_true,
          decide_eq_true_eq, Bool.and_eq_false_iff, decide_eq_false_iff_not] at leading ⊢
        omega
      have read : ∀ rest, escape unicodeEscape (('u' :: (digits ++ '\\' :: 'u' :: more)) ++ rest) =
          .ok (Text.pairedChar first second, rest) := fun rest => by
        simp [escape, unicodeEscape, fourHexDigits_unit hex, fourHexDigits_unit hex_more, leading,
          trailing, first_single, expect]
      simpa using ih.escaped _ read

theorem string_written {text : String} {inside : List Char} (h : StringChars text.toList inside)
    (rest : List Char) : string (inside ++ '"' :: rest) = .ok (text, rest) := by
  have enough : inside.length < (inside ++ '"' :: rest).length := by simp
  rw [string, h.readsChars.read enough]
  simp

theorem memberName_quoted {string : Reader σ} {name : σ} {inside rest : List Char}
    (h : string (inside ++ '"' :: rest) = .ok (name, rest)) {blanks : List Char}
    (blank : AllBlank blanks) :
    memberName string (blanks ++ ('"' :: (inside ++ ['"']) ++ rest)) = .ok (name, rest) := by
  simp [memberName, dropBlanks_append blank, isBlank, h]

theorem memberName_written {name : String} {quoted blanks : List Char} (h : StringText name quoted)
    (blank : AllBlank blanks) (rest : List Char) :
    memberName string (blanks ++ (quoted ++ rest)) = .ok (name, rest) := by
  obtain ⟨inside, chars, rfl⟩ := h
  exact memberName_quoted (string_written chars rest) blank

theorem StringText.reads_lead {text : String} {quoted : List Char} (h : StringText text quoted) :
    Reads lead quoted (.str text) := by
  obtain ⟨inside, chars, rfl⟩ := h
  exact reads_quoted (string_written chars)

theorem StringChars.of_plain {text : List Char}
    (h : ∀ c ∈ text, c ≠ '"' ∧ c ≠ '\\' ∧ 0x20 ≤ c.toNat) : StringChars text text := by
  induction text with
  | nil => exact .nil
  | cons c text ih =>
      obtain ⟨quote, backslash, printable⟩ := h c List.mem_cons_self
      exact .plain quote backslash printable
        (ih fun other hm => h other (List.mem_cons_of_mem _ hm))

theorem StringChars.stringText {chars inside : List Char} (h : StringChars chars inside) :
    StringText (String.ofList chars) ('"' :: (inside ++ ['"'])) :=
  ⟨inside, by simpa using h, rfl⟩

/-! ## Every string that is read is written so -/

theorem exists_hexUnit {text rest : List Char} {unit : Nat}
    (h : fourHexDigits text = .ok (unit, rest)) :
    ∃ digits, HexUnit digits unit ∧ text = digits ++ rest := by
  unfold fourHexDigits at h
  split at h
  next => cases h
  next enough =>
  split at h
  next a b c d tail =>
    split at h
    next p q r s ha hb hc hd =>
      cases h
      exact ⟨[a, b, c, d], .digits ha hb hc hd, rfl⟩
    next => cases h
  next => cases h

/-- A code point that is read is that of a character, or two of them are a pair of surrogates. -/
theorem exists_unicodeEscaped {text rest : List Char} {c : Char}
    (h : unicodeEscape text = .ok (c, rest)) :
    ∃ escaped, text = escaped ++ rest ∧ ∀ {chars inside : List Char}, StringChars chars inside →
      StringChars (c :: chars) ('\\' :: 'u' :: (escaped ++ inside)) := by
  unfold unicodeEscape at h
  obtain ⟨⟨unit, after⟩, read, h_unit⟩ := bind_eq_ok_iff.mp h
  obtain ⟨digits, hex, rfl⟩ := exists_hexUnit read
  simp only at h_unit
  split at h_unit
  next => cases h_unit
  next trailing =>
  split at h_unit
  next leading =>
    obtain ⟨⟨_, behind⟩, mark, h_more⟩ := bind_eq_ok_iff.mp h_unit
    obtain ⟨⟨second, last⟩, read_more, made⟩ := bind_eq_ok_iff.mp h_more
    obtain ⟨more, hex_more, rfl⟩ := exists_hexUnit read_more
    obtain rfl := append_of_expect mark
    simp only at made
    split at made
    next trailing_more =>
      obtain ⟨rfl, rfl⟩ := Prod.mk.inj (Except.ok.inj made)
      exact ⟨digits ++ '\\' :: 'u' :: more, by simp, fun written => by
        simpa using StringChars.pair hex hex_more leading trailing_more written⟩
    next => cases made
  next leading =>
    cases h_unit
    exact ⟨digits, rfl, .single hex (Bool.eq_false_iff.mpr leading) (Bool.eq_false_iff.mpr trailing)⟩

theorem exists_escaped {text rest : List Char} {c : Char}
    (h : escape unicodeEscape text = .ok (c, rest)) :
    ∃ escaped, text = escaped ++ rest ∧ ∀ {chars inside : List Char}, StringChars chars inside →
      StringChars (c :: chars) ('\\' :: (escaped ++ inside)) := by
  cases text with
  | nil => cases h
  | cons letter tail =>
      simp only [escape] at h
      split at h
      next is_u =>
        subst is_u
        obtain ⟨escaped, rfl, written⟩ := exists_unicodeEscaped h
        exact ⟨'u' :: escaped, rfl, written⟩
      next =>
        split at h
        next d stands =>
          cases h
          exact ⟨[letter], rfl, .letter stands⟩
        next => cases h

theorem exists_stringChars {bound held text rest read : List Char}
    (h : stringChars unicodeEscape bound held text = .ok (read, rest)) :
    ∃ chars inside, StringChars chars inside ∧ read = held.reverse ++ chars ∧
      text = inside ++ '"' :: rest := by
  induction bound generalizing held text with
  | nil => cases text <;> cases h
  | cons b bound ih =>
      cases text with
      | nil => cases h
      | cons c tail =>
          rw [stringChars] at h
          split at h
          next quote =>
            cases h
            exact ⟨[], [], .nil, by simp, by simp [quote]⟩
          next quote =>
          split at h
          next backslash =>
            obtain ⟨⟨d, after⟩, escaped, read_on⟩ := bind_eq_ok_iff.mp h
            obtain ⟨spelled, rfl, written⟩ := exists_escaped escaped
            obtain ⟨chars, inside, chars_written, rfl, rfl⟩ := ih read_on
            exact ⟨d :: chars, _, written chars_written, by simp, by simp [backslash]⟩
          next backslash =>
          split at h
          next => cases h
          next printable =>
            obtain ⟨chars, inside, chars_written, rfl, rfl⟩ := ih h
            exact ⟨c :: chars, c :: inside,
              .plain quote backslash (Nat.le_of_not_lt printable) chars_written, by simp, rfl⟩

theorem exists_stringText {text : String} {inside rest : List Char}
    (h : string inside = .ok (text, rest)) :
    ∃ quoted, StringText text quoted ∧ '"' :: inside = quoted ++ rest := by
  obtain ⟨⟨read, after⟩, chars_read, made⟩ := bind_eq_ok_iff.mp h
  cases made
  obtain ⟨chars, spelled, written, rfl, rfl⟩ := exists_stringChars chars_read
  exact ⟨_, ⟨spelled, by simpa using written, rfl⟩, by simp⟩

end GameCatalog.Json
