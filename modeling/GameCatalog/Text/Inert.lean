import GameCatalog.Text.Hex

/-!
# Inert text

A terminal obeys some control characters in what it shows. Inert text has none of them: the bell,
backspace, form feed, escape and delete are spelled by two hexadecimal digits, and the controls from
U+0080 to U+009F by their code point in braces. All else stands as it is.
-/

namespace GameCatalog.Text

/-- The controls of ASCII that a terminal may obey. -/
def terminalControls : List Char := ['\x07', '\x08', '\x0c', '\x1b', '\x7f']

def inertChar (c : Char) : List Char :=
  if c ∈ terminalControls then
    let digits := hexDigits c.toNat
    ['\\', 'x'] ++ List.replicate (2 - digits.length) '0' ++ digits
  else if 0x80 ≤ c.toNat ∧ c.toNat ≤ 0x9f then
    ['\\', 'u', '\x7b'] ++ hexDigits c.toNat ++ ['\x7d']
  else [c]

def inert (text : String) : String := String.ofList (text.toList.flatMap inertChar)

example : inertChar '\x07' = ['\\', 'x', '0', '7'] ∧ inertChar '\n' = ['\n'] := by decide +kernel

end GameCatalog.Text
