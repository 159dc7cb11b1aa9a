import GameCatalog.Settings.Merge
import GameCatalog.Text.Blank

/-!
# Names of settings

The name of a setting may lead on into it: after a point to a member of a table, and with a number
in brackets to an item of a list, negative numbers counting from the end. `Setting.put` gives the
part that a name leads to a value; what stands in its way becomes a table or a list. Letter case
counts in the names on the way and not in the last one.
-/

namespace GameCatalog

inductive NameStep where
  | member (name : String)
  | item (index : Int)

abbrev SettingName := List NameStep

namespace SettingName

def isNameChar (c : Char) : Bool := c.isAlphanum || c == '_' || c == '-' || c == ' '

def index? (text : List Char) : Option (Int × List Char) :=
  let text := Text.dropBlanks text
  let (negative, digits) := match text with
    | '-' :: rest => (true, rest)
    | _ => (false, text)
  (naturalOfDigits? (digits.takeWhile Char.isDigit)).bind fun size =>
    let n : Int := if negative then -size else size
    if isLong n then some (n, Text.dropBlanks (digits.dropWhile Char.isDigit)) else none

def steps? : Nat → List Char → Option (List NameStep)
  | _, [] => some []
  | 0, _ :: _ => none
  | fuel + 1, '.' :: rest =>
      let name := rest.takeWhile isNameChar
      if name.isEmpty then none
      else (steps? fuel (rest.drop name.length)).map (.member (String.ofList name) :: ·)
  | fuel + 1, '[' :: rest =>
      match index? rest with
      | some (n, ']' :: rest) => (steps? fuel rest).map (.item n :: ·)
      | _ => none
  | _ + 1, _ :: _ => none

def ofText (text : String) : SettingName :=
  let chars := text.toList
  let whole := chars.takeWhile isNameChar
  match steps? chars.length (chars.drop whole.length) with
  | some steps => if whole.isEmpty then [.member text] else .member (String.ofList whole) :: steps
  | none => [.member text]

end SettingName

namespace Setting

def items : Setting → List Setting
  | .list items => items
  | _ => []

/-- The place of an item in a list of so many; before the start there is none. -/
def place? (index : Int) (length : Nat) : Option Nat :=
  if 0 ≤ index then some index.toNat
  else if index.natAbs ≤ length then some (length - index.natAbs) else none

/-- The setting after the part where the steps lead to has got a value. A list grows as far as it
has to, and a table given to a table is merged into it. -/
def put (value : Setting) : SettingName → Setting → Setting
  | [], _ => value
  | [.member name], setting => .table (give name value setting.members)
  | .member name :: steps, setting =>
      .table (setting.members.edit name fun held => put value steps (held.getD .absent))
  | .item index :: steps, setting =>
      let items := setting.items
      match place? index items.length with
      | none => setting
      | some n =>
          let items := items ++ List.replicate (n + 1 - items.length) .absent
          .list (items.modify n (put value steps))

end Setting

end GameCatalog
