/-!
# Readers of texts

A reader takes something from the start of a text and answers with the rest. It has no answer where
the text is malformed.
-/

namespace GameCatalog.Text

abbrev Parser (α : Type) := List Char → Option (α × List Char)

def after? : List Char → List Char → Option (List Char)
  | [], text => some text
  | _ :: _, [] => none
  | c :: word, d :: rest => if c = d then after? word rest else none

theorem after?_append (word rest : List Char) : after? word (word ++ rest) = some rest := by
  induction word with
  | nil => rfl
  | cons c word ih => simp [after?, ih]

theorem eq_append_of_after? {word text rest : List Char} (h : after? word text = some rest) :
    text = word ++ rest := by
  induction word generalizing text with
  | nil => simpa [after?] using h
  | cons c word ih =>
      cases text with
      | nil => simp [after?] at h
      | cons d text =>
          by_cases hc : c = d
          · subst hc
            simp only [after?, if_true] at h
            simp [ih h]
          · simp [after?, hc] at h

def whole? (parser : Parser α) (text : List Char) : Option α :=
  match parser text with
  | some (value, []) => some value
  | _ => none

end GameCatalog.Text
