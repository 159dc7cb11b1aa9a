/-!
# Blanks

The space and the tab, which part words on a line, and the wider classes of white space: the
separators of category Zs, and everything that counts as white space.
-/

namespace GameCatalog.Text

def isBlank (c : Char) : Bool := c == ' ' || c == '\t'

def dropBlanks (text : List Char) : List Char := text.dropWhile isBlank

def isSpaceSeparator (c : Char) : Bool :=
  let code := c.toNat
  code == 0x20 || code == 0xa0 || code == 0x1680 || (0x2000 ≤ code && code ≤ 0x200a) ||
    code == 0x202f || code == 0x205f || code == 0x3000

/-- White space: the space separators, the controls that move the place of writing, and the
separators of lines and paragraphs. -/
def isSpace (c : Char) : Bool :=
  let code := c.toNat
  isSpaceSeparator c || (9 ≤ code && code ≤ 13) || code == 0x85 || code == 0x2028 || code == 0x2029

theorem isSpace_of_isWhitespace {c : Char} (h : c.isWhitespace = true) : isSpace c = true := by
  simp only [Char.isWhitespace, Bool.or_eq_true, decide_eq_true_eq] at h
  rcases h with ((rfl | rfl) | rfl) | rfl <;> decide

def trim (text : List Char) : List Char :=
  ((text.dropWhile isSpace).reverse.dropWhile isSpace).reverse

end GameCatalog.Text
