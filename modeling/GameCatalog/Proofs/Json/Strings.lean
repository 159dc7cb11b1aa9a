import GameCatalog.Json.Scan
import GameCatalog.Json.Text
import GameCatalog.Proofs.Except

/-!
# Reading strings back

Each character is written so that one step of the string reader takes it back: as itself, as an
escape of one letter, or by its code point.
-/

namespace GameCatalog.Json

/-! ## Escapes by code point -/

theorem hexValue?_digitChar {d : Nat} (h : d < 16) : Text.hexValue? d.digitChar = some d := by
  have hall : ∀ d : Fin 16, Text.hexValue? d.val.digitChar = some d.val := by decide
  exact hall ⟨d, h⟩

theorem utf8Size_digitChar {d : Nat} (h : d < 16) : d.digitChar.utf8Size = 1 := by
  have hall : ∀ d : Fin 16, d.val.digitChar.utf8Size = 1 := by decide
  exact hall ⟨d, h⟩

theorem hexEscape_of_lt {code : Nat} (h : code < 0x20) :
    hexEscape code =
      ['\\', 'u', '0', '0', (code / 16).digitChar, (code % 16).digitChar] := by
  have hall : ∀ code : Fin 0x20, hexEscape code.val =
      ['\\', 'u', '0', '0', (code.val / 16).digitChar, (code.val % 16).digitChar] := by decide
  exact hall ⟨code, h⟩

theorem fourHexDigits_of_lt {code : Nat} (h : code < 0x20) (rest : List Char) :
    fourHexDigits ('0' :: '0' :: (code / 16).digitChar :: (code % 16).digitChar :: rest) =
      .ok (code, rest) := by
  have hhigh := hexValue?_digitChar (d := code / 16) (by omega)
  have hlow := hexValue?_digitChar (d := code % 16) (by omega)
  have hzero : Text.hexValue? '0' = some 0 := rfl
  have hbytes : byteCount ['0', '0', (code / 16).digitChar, (code % 16).digitChar] = 4 := by
    simp only [byteCount, utf8Size_digitChar (d := code / 16) (by omega),
      utf8Size_digitChar (d := code % 16) (by omega)]
    rfl
  have hcode : code / 16 * 16 + code % 16 = code := by omega
  unfold fourHexDigits
  simp [hbytes, hhigh, hlow, hzero, hcode]

theorem unicodeEscape_of_lt {c : Char} (h : c.toNat < 0x20) (rest : List Char) :
    unicodeEscape ('0' :: '0' :: (c.toNat / 16).digitChar :: (c.toNat % 16).digitChar :: rest) =
      .ok (c, rest) := by
  have htrail : Text.isTrailingSurrogate c.toNat = false := by
    simp [Text.isTrailingSurrogate]
    omega
  have hlead : Text.isLeadingSurrogate c.toNat = false := by
    simp [Text.isLeadingSurrogate]
    omega
  unfold unicodeEscape
  simp [fourHexDigits_of_lt h, htrail, hlead]

/-! ## Characters -/

/-- The three ways in which a character is written. -/
theorem escapedChar_cases (c : Char) :
    (∃ letter, letter ≠ 'u' ∧ letterEscape? letter = some c ∧ escapedChar c = ['\\', letter]) ∨
    (c.toNat < 0x20 ∧ escapedChar c = hexEscape c.toNat) ∨
    (c ≠ '"' ∧ c ≠ '\\' ∧ ¬c.toNat < 0x20 ∧ escapedChar c = [c]) := by
  by_cases hq : c = '"'
  · exact .inl ⟨'"', by decide, by subst hq; rfl, by simp [escapedChar, hq]⟩
  by_cases hs : c = '\\'
  · exact .inl ⟨'\\', by decide, by subst hs; rfl, by simp [escapedChar, hs]⟩
  by_cases hb : c = '\x08'
  · exact .inl ⟨'b', by decide, by subst hb; rfl, by simp [escapedChar, hb]⟩
  by_cases hf : c = '\x0c'
  · exact .inl ⟨'f', by decide, by subst hf; rfl, by simp [escapedChar, hf]⟩
  by_cases hn : c = '\n'
  · exact .inl ⟨'n', by decide, by subst hn; rfl, by simp [escapedChar, hn]⟩
  by_cases hr : c = '\r'
  · exact .inl ⟨'r', by decide, by subst hr; rfl, by simp [escapedChar, hr]⟩
  by_cases ht : c = '\t'
  · exact .inl ⟨'t', by decide, by subst ht; rfl, by simp [escapedChar, ht]⟩
  by_cases hc : c.toNat < 0x20
  · exact .inr (.inl ⟨hc, by simp [escapedChar, hq, hs, hb, hf, hn, hr, ht, hc]⟩)
  · exact .inr (.inr ⟨hq, hs, hc, by simp [escapedChar, hq, hs, hb, hf, hn, hr, ht, hc]⟩)

theorem stringChars_escapedChar (c b : Char) (bound held rest : List Char) :
    stringChars unicodeEscape (b :: bound) held (escapedChar c ++ rest) =
      stringChars unicodeEscape bound (c :: held) rest := by
  rcases escapedChar_cases c with ⟨letter, hu, hl, he⟩ | ⟨hc, he⟩ | ⟨hq, hs, hc, he⟩
  · simp [he, stringChars, escape, hu, hl]
  · simp [he, hexEscape_of_lt hc, stringChars, escape, unicodeEscape_of_lt hc]
  · simp [he, stringChars, hq, hs, hc]

theorem stringChars_flatMap {text bound : List Char} (h : text.length < bound.length)
    (held rest : List Char) :
    stringChars unicodeEscape bound held (text.flatMap escapedChar ++ '"' :: rest) =
      .ok (held.reverse ++ text, rest) := by
  induction text generalizing bound held with
  | nil =>
      cases bound with
      | nil => simp at h
      | cons b bound => simp [stringChars]
  | cons c text ih =>
      cases bound with
      | nil => simp at h
      | cons b bound =>
          rw [List.flatMap_cons, List.append_assoc, stringChars_escapedChar]
          rw [ih (by simpa using h)]
          simp

theorem length_le_flatMap {f : α → List β} (h : ∀ x, f x ≠ []) (xs : List α) :
    xs.length ≤ (xs.flatMap f).length := by
  induction xs with
  | nil => simp
  | cons x rest ih =>
      have hpos := List.length_pos_iff.mpr (h x)
      rw [List.flatMap_cons, List.length_append, List.length_cons]
      omega

theorem escapedChar_ne_nil (c : Char) : escapedChar c ≠ [] := by
  rcases escapedChar_cases c with ⟨letter, -, -, he⟩ | ⟨-, he⟩ | ⟨-, -, -, he⟩ <;>
    simp [he, hexEscape]

/-- What follows the opening quote of a written string reads back as the string. -/
theorem string_escaped (text : String) (rest : List Char) :
    string (text.toList.flatMap escapedChar ++ '"' :: rest) = .ok (text, rest) := by
  have hlen : text.toList.length <
      (text.toList.flatMap escapedChar ++ '"' :: rest).length := by
    have hle := length_le_flatMap escapedChar_ne_nil text.toList
    simp only [List.length_append, List.length_cons]
    omega
  unfold string
  simp [stringChars_flatMap hlen]

end GameCatalog.Json
