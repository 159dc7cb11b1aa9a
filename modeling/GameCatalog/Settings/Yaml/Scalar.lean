import GameCatalog.Settings.Value
import GameCatalog.Settings.Yaml.Token

/-!
# What YAML scalars stand for

A quoted scalar is text. A plain one is nothing, a switch, an integer of 64 bits, a double or text,
as it is written, or what its tag says. The words for infinity and for no number are no settings.
-/

namespace GameCatalog.Yaml

open Text

def radixInt? (radix : Nat) (text : List Char) : Option Int :=
  let (negative, digits) := splitSign text
  let values := digits.mapM fun c => (hexValue? c).filter (· < radix)
  match values with
  | none | some [] => none
  | some values =>
      let size := values.foldl (fun n d => n * radix + d) 0
      let n : Int := if negative then -size else size
      if isLong n then some n else none

def int? (text : List Char) : Option Int :=
  match text with
  | '0' :: 'x' :: digits => radixInt? 16 digits
  | '0' :: 'o' :: digits => radixInt? 8 digits
  | '+' :: digits => Scalar.int? digits
  | digits => Scalar.int? digits

def isDoubleWord (text : String) : Bool :=
  let unsigned := [".inf", ".Inf", ".INF"]
  (unsigned ++ unsigned.map ("+" ++ ·) ++ unsigned.map ("-" ++ ·) ++
    [".nan", ".NaN", ".NAN"]).contains text

def double? (text : String) : Option AnyDouble :=
  if text.toList.any Char.isDigit then Scalar.double? text.toList else none

/-- The setting of a plain scalar without a tag; none for a double that no setting can be. -/
def plainSetting? (text : String) : Option Setting :=
  match int? text.toList with
  | some n => some (.scalar (.int n))
  | none =>
      if text = "" ∨ text = "~" ∨ text = "null" then some .absent
      else if text = "true" then some (.scalar (.switch true))
      else if text = "false" then some (.scalar (.switch false))
      else if isDoubleWord text then none
      else match double? text with
        | some x => some (.scalar (.double x))
        | none => some (.scalar (.text text))

def commonHandle : String := "tag:yaml.org,2002:"

/-- The setting of a plain scalar with a tag. Where it is none of that kind it has no value. -/
def taggedSetting? (tag : Tag) (text : String) : Option Setting :=
  if tag.handle ≠ commonHandle then some (.scalar (.text text))
  else if tag.suffix = "bool" then
    if text = "true" then some (.scalar (.switch true))
    else if text = "false" then some (.scalar (.switch false))
    else some .absent
  else if tag.suffix = "int" then
    match Scalar.int? text.toList with
    | some n => some (.scalar (.int n))
    | none => some .absent
  else if tag.suffix = "float" then
    if isDoubleWord text then none
    else match double? text with
      | some x => some (.scalar (.double x))
      | none => some .absent
  else if tag.suffix = "null" then some .absent
  else some (.scalar (.text text))

def scalarSetting? (tag : Option Tag) (plain : Bool) (text : String) : Option Setting :=
  if !plain then some (.scalar (.text text))
  else match tag with
    | some tag => taggedSetting? tag text
    | none => plainSetting? text

end GameCatalog.Yaml
