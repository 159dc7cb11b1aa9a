import GameCatalog.Text.Utf8
import Mathlib.Data.List.Basic
import Mathlib.Data.List.Lex
import Mathlib.Data.String.Basic
import Mathlib.Tactic.SplitIfs

/-!
# The order of texts

Texts are in lexicographic order of the scalar values of their characters, and the bytes of their
UTF-8 encodings are in the same order: of two characters the one of the greater scalar value has the
greater first byte, or the same one, and then the greater number in the bytes that follow.
-/

namespace GameCatalog.Text

def scalars (text : String) : List Nat := text.toList.map Char.toNat

/-! ## The encoding of a character -/

/-- The first byte of the encoding of a scalar value. -/
def leadByte (value : Nat) : Nat :=
  if value < 0x80 then value
  else if value < 0x800 then 0xC0 + value / 64
  else if value < 0x10000 then 0xE0 + value / 64 ^ 2
  else 0xF0 + value / 64 ^ 3

def tailLength (value : Nat) : Nat :=
  if value < 0x80 then 0 else if value < 0x800 then 1 else if value < 0x10000 then 2 else 3

/-- The bytes of that many last digits, of six bits each. -/
def tailBytes : Nat → Nat → List UInt8
  | 0, _ => []
  | count + 1, value => UInt8.ofNat (value / 64 ^ count % 64 + 0x80) :: tailBytes count value

theorem toNat_lt (c : Char) : c.toNat < 0x110000 := by
  have valid := c.valid
  have toNat_eq : c.toNat = c.val.toNat := rfl
  simp only [UInt32.isValidChar, Nat.isValidChar] at valid
  omega

theorem utf8EncodeChar_eq (c : Char) :
    String.utf8EncodeChar c =
      UInt8.ofNat (leadByte c.toNat) :: tailBytes (tailLength c.toNat) c.toNat := by
  have bound := toNat_lt c
  have toNat_eq : c.val.toNat = c.toNat := rfl
  unfold String.utf8EncodeChar leadByte tailLength
  rw [toNat_eq]
  generalize c.toNat = value at bound
  by_cases one : value < 0x80
  · have short : value ≤ 127 := by omega
    simp [one, short, tailBytes]
  by_cases two : value < 0x800
  · have short : ¬value ≤ 127 ∧ value ≤ 2047 := by omega
    have lead : value / 64 % 32 = value / 64 := Nat.mod_eq_of_lt (by omega)
    simp [one, two, short, lead, tailBytes, Nat.add_comm]
  by_cases three : value < 0x10000
  · have short : ¬value ≤ 127 ∧ ¬value ≤ 2047 ∧ value ≤ 65535 := by omega
    have lead : value / 4096 % 16 = value / 4096 := Nat.mod_eq_of_lt (by omega)
    simp [one, two, three, short, lead, tailBytes, Nat.add_comm]
  · have long : ¬value ≤ 127 ∧ ¬value ≤ 2047 ∧ ¬value ≤ 65535 := by omega
    have lead : value / 262144 % 8 = value / 262144 := Nat.mod_eq_of_lt (by omega)
    simp [one, two, three, long, lead, tailBytes, Nat.add_comm]

theorem leadByte_lt {value : Nat} (bound : value < 0x110000) : leadByte value < 256 := by
  unfold leadByte
  split_ifs <;> omega

/-- A greater value has a greater first byte, or the same one and a greater rest. -/
theorem leadByte_cases {value other : Nat} (lt : value < other) (bound : other < 0x110000) :
    leadByte value < leadByte other ∨
      leadByte value = leadByte other ∧ tailLength value = tailLength other ∧
        value / 64 ^ tailLength value = other / 64 ^ tailLength value := by
  unfold leadByte tailLength
  split_ifs <;> simp <;> omega

/-- The first digit in which two values differ decides, so the last one does where all others are the
same. -/
theorem lex_tailBytes {count value other : Nat} (lt : value < other)
    (same : value / 64 ^ count = other / 64 ^ count) (rest more : List UInt8) :
    List.Lex (· < ·) (tailBytes count value ++ rest) (tailBytes count other ++ more) := by
  induction count with
  | zero =>
      rw [Nat.pow_zero, Nat.div_one, Nat.div_one] at same
      omega
  | succ count ih =>
      rw [tailBytes, tailBytes, List.cons_append, List.cons_append]
      rw [Nat.pow_succ, ← Nat.div_div_eq_div_mul, ← Nat.div_div_eq_div_mul] at same
      have ordered : value / 64 ^ count ≤ other / 64 ^ count :=
        Nat.div_le_div_right (Nat.le_of_lt lt)
      by_cases equal : value / 64 ^ count = other / 64 ^ count
      · rw [equal]
        exact .cons (ih equal)
      · refine .rel ?_
        have byte : ∀ digits, digits % 64 + 0x80 < UInt8.size := by
          intro digits
          rw [UInt8.size]
          omega
        rw [UInt8.ofNat_lt_iff_lt (byte _) (byte _)]
        omega

theorem lex_utf8EncodeChar {c d : Char} (lt : c.toNat < d.toNat) (rest more : List UInt8) :
    List.Lex (· < ·) (String.utf8EncodeChar c ++ rest) (String.utf8EncodeChar d ++ more) := by
  have bound := toNat_lt d
  rw [utf8EncodeChar_eq, utf8EncodeChar_eq, List.cons_append, List.cons_append]
  rcases leadByte_cases lt bound with less | ⟨same, length_eq, digits⟩
  · refine .rel ?_
    rw [UInt8.ofNat_lt_iff_lt (leadByte_lt (Nat.lt_trans lt bound)) (leadByte_lt bound)]
    exact less
  · rw [same, ← length_eq]
    exact .cons (lex_tailBytes lt digits rest more)

/-! ## Texts -/

theorem utf8_eq (text : String) : utf8 text = text.toList.flatMap String.utf8EncodeChar := by
  rw [utf8, String.toUTF8_eq_toByteArray, ← String.utf8Encode_toList, List.utf8Encode,
    List.data_toByteArray]

theorem utf8_lt {a b : List Char} (h : List.Lex (fun c d => c.toNat < d.toNat) a b) :
    List.Lex (· < ·) (a.flatMap String.utf8EncodeChar) (b.flatMap String.utf8EncodeChar) := by
  induction h with
  | nil =>
      rw [List.flatMap_cons, utf8EncodeChar_eq]
      exact .nil
  | rel lt =>
      rw [List.flatMap_cons, List.flatMap_cons]
      exact lex_utf8EncodeChar lt _ _
  | cons _ ih =>
      rw [List.flatMap_cons, List.flatMap_cons]
      exact List.Lex.append_left _ ih _

theorem lex_scalars_iff {a b : List Char} :
    List.Lex (· < ·) (a.map Char.toNat) (b.map Char.toNat) ↔
      List.Lex (fun c d => c.toNat < d.toNat) a b := by
  induction a generalizing b with
  | nil => cases b <;> simp
  | cons c rest ih =>
      cases b with
      | nil => simp
      | cons d more => simp [List.cons_lex_cons_iff, ih, Char.toNat_inj]

theorem lt_iff_scalars {a b : String} : a < b ↔ List.Lex (· < ·) (scalars a) (scalars b) := by
  rw [scalars, scalars, lex_scalars_iff, String.lt_iff_toList_lt]
  rfl

theorem lt_iff_utf8 {a b : String} : a < b ↔ List.Lex (· < ·) (utf8 a) (utf8 b) := by
  have forward : ∀ {a b : String}, a < b → utf8 a < utf8 b := by
    intro a b lt
    rw [lt_iff_scalars, scalars, scalars, lex_scalars_iff] at lt
    rw [utf8_eq, utf8_eq]
    exact utf8_lt lt
  refine ⟨forward, fun lex => ?_⟩
  rcases lt_trichotomy a b with lt | rfl | gt
  · exact lt
  · exact absurd lex (List.lt_irrefl _)
  · exact absurd lex (List.lt_asymm (forward gt))

end GameCatalog.Text
