/-!
# UTF-8

The bytes of texts, and texts in bytes. Bytes that are no text are shown with a replacement
character for each start of a character that is not finished, and for each byte that starts none.
-/

namespace GameCatalog.Text

def utf8 (text : String) : List UInt8 := text.toUTF8.data.toList

def ofUtf8? (bytes : List UInt8) : Option String := String.fromUTF8? ⟨bytes.toArray⟩

theorem ofUtf8?_eq_some_iff {bytes : List UInt8} {text : String} :
    ofUtf8? bytes = some text ↔ utf8 text = bytes := by
  unfold ofUtf8? String.fromUTF8? utf8
  constructor
  · intro h
    split at h
    · cases h
      rfl
    · cases h
  · rintro rfl
    have valid : (ByteArray.mk text.toUTF8.data.toList.toArray).IsValidUTF8 := text.isValidUTF8
    rw [dif_pos valid]
    rfl

@[simp] theorem ofUtf8?_utf8 (text : String) : ofUtf8? (utf8 text) = some text :=
  ofUtf8?_eq_some_iff.mpr rfl

theorem utf8_injective {text other : String} (h : utf8 text = utf8 other) : text = other := by
  have same := ofUtf8?_utf8 text
  rw [h, ofUtf8?_utf8] at same
  exact (Option.some.inj same).symm

/-- The bounds of the bytes that follow the first byte of a character; none if it starts none. -/
def followers? (first : UInt8) : Option (List (UInt8 × UInt8)) :=
  let follower := (0x80, 0xbf)
  if first < 0x80 then some []
  else if first < 0xc2 then none
  else if first < 0xe0 then some [follower]
  else if first < 0xf0 then
    some [(if first = 0xe0 then 0xa0 else 0x80, if first = 0xed then 0x9f else 0xbf), follower]
  else if first < 0xf5 then
    some [(if first = 0xf0 then 0x90 else 0x80, if first = 0xf4 then 0x8f else 0xbf), follower,
      follower]
  else none

def takeWithin : List (UInt8 × UInt8) → List UInt8 → List UInt8
  | (low, high) :: bounds, byte :: rest =>
      if low ≤ byte ∧ byte ≤ high then byte :: takeWithin bounds rest else []
  | _, _ => []

def replacement : Char := '\uFFFD'

/-- The characters of bytes that need not be text; each step takes a byte at least. -/
def charsOfBytes : Nat → List UInt8 → List Char
  | 0, _ | _, [] => []
  | fuel + 1, first :: rest =>
      let taken := match followers? first with
        | some bounds => takeWithin bounds rest
        | none => []
      let shown := match ofUtf8? (first :: taken) with
        | some text => text.toList
        | none => [replacement]
      shown ++ charsOfBytes fuel (rest.drop taken.length)

def display (bytes : List UInt8) : String :=
  match ofUtf8? bytes with
  | some text => text
  | none => String.ofList (charsOfBytes bytes.length bytes)

@[simp] theorem display_utf8 (text : String) : display (utf8 text) = text := by
  rw [display, ofUtf8?_utf8]

example : display [0x61, 0xff, 0xe2, 0x82, 0x62, 0xc3, 0xa9] = "a\uFFFD\uFFFDbé" := by
  decide +kernel

end GameCatalog.Text
