import GameCatalog.Json.Value
import GameCatalog.Binary64.Spelling

/-!
# Writing JSON

One layout says where lines break and what follows a name; compact text and indented text differ
in nothing else. Characters beyond ASCII stand as they are.
-/

namespace GameCatalog.Json

/-- How the parts of a value are spaced: what starts a line at a nesting level, and what separates a
name from its value. -/
structure Layout where
  line : Nat → List Char
  colon : List Char

namespace Layout

def compact : Layout := ⟨fun _ => [], [':']⟩

def indented (indent : Nat) : Layout :=
  ⟨fun level => '\n' :: List.replicate (level * indent) ' ', [':', ' ']⟩

def enclose (layout : Layout) (level : Nat) (first last : Char) : List (List Char) → List Char
  | [] => [first, last]
  | part :: parts =>
      first :: layout.line (level + 1) ++ part ++
        parts.flatMap (fun next => ',' :: layout.line (level + 1) ++ next) ++
        layout.line level ++ [last]

end Layout

/-! ## Tokens -/

def hexEscape (code : Nat) : List Char :=
  let digits := Nat.toDigits 16 code
  '\\' :: 'u' :: List.replicate (4 - digits.length) '0' ++ digits

def escapedChar (c : Char) : List Char :=
  if c = '"' then ['\\', '"']
  else if c = '\\' then ['\\', '\\']
  else if c = '\x08' then ['\\', 'b']
  else if c = '\x0c' then ['\\', 'f']
  else if c = '\n' then ['\\', 'n']
  else if c = '\r' then ['\\', 'r']
  else if c = '\t' then ['\\', 't']
  else if c.toNat < 0x20 then hexEscape c.toNat
  else [c]

def stringText (text : String) : List Char :=
  '"' :: text.toList.flatMap escapedChar ++ ['"']

def intText (n : Int) : List Char :=
  if n < 0 then '-' :: Nat.toDigits 10 n.natAbs else Nat.toDigits 10 n.natAbs

def Number.text : Number → List Char
  | .int n _ => intText n
  | .float x => x.dataText

/-! ## Values -/

def memberText (layout : Layout) (name : String) (value : List Char) : List Char :=
  stringText name ++ layout.colon ++ value

mutual

def Value.text (layout : Layout) (level : Nat) : Value → List Char
  | .null => ['n', 'u', 'l', 'l']
  | .bool true => ['t', 'r', 'u', 'e']
  | .bool false => ['f', 'a', 'l', 's', 'e']
  | .num n => n.text
  | .str s => stringText s
  | .arr items => layout.enclose level '[' ']' (itemTexts layout (level + 1) items)
  | .obj members => layout.enclose level '\x7b' '\x7d' (memberTexts layout (level + 1) members)

def itemTexts (layout : Layout) (level : Nat) : List Value → List (List Char)
  | [] => []
  | item :: rest => item.text layout level :: itemTexts layout level rest

def memberTexts (layout : Layout) (level : Nat) : List (String × Value) → List (List Char)
  | [] => []
  | (name, value) :: rest =>
      memberText layout name (value.text layout level) :: memberTexts layout level rest

end

def Value.compact (value : Value) : String := String.ofList (value.text .compact 0)

end GameCatalog.Json
