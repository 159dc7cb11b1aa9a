import GameCatalog.Settings.Toml.Number
import GameCatalog.Settings.Toml.Table

/-!
# Values of TOML

A value is a string, a moment, a number, a switch, an array or a table on one line.
-/

namespace GameCatalog.Toml

open Text

def scalar : Parser Node := fun text =>
  match Moment.read? text with
  | some (moment, rest) => some (.moment moment, rest)
  | none =>
      (word? (text.takeWhile isWordChar)).map fun scalar =>
        (.leaf scalar, text.dropWhile isWordChar)

mutual

def valueWithin : Nat → Nat → Parser Node
  | 0, _, _ => none
  | _ + 1, _, [] => none
  | fuel + 1, room, c :: rest =>
      if c = '"' ∨ c = '\'' then
        (stringAfter c rest).map fun (text, rest) => (.leaf (.text text), rest)
      else if c = '[' then
        if room = 0 then none else arrayItems fuel (room - 1) [] rest
      else if c = '\x7b' then
        if room = 0 then none
        else match dropBlanks rest with
          | '\x7d' :: rest => some (.closed [], rest)
          | rest => tableItems fuel (room - 1) [] rest
      else scalar (c :: rest)

def arrayItems : Nat → Nat → List Node → Parser Node
  | 0, _, _, _ => none
  | fuel + 1, room, held, text =>
      match dropSpace text with
      | ']' :: rest => some (.array held.reverse, rest)
      | text =>
          match valueWithin fuel room text with
          | none => none
          | some (item, rest) =>
              match dropSpace rest with
              | ',' :: rest => arrayItems fuel room (item :: held) rest
              | ']' :: rest => some (.array (item :: held).reverse, rest)
              | _ => none

def tableItems : Nat → Nat → Table → Parser Node
  | 0, _, _, _ => none
  | fuel + 1, room, held, text =>
      match key text with
      | some (path, '=' :: rest) =>
          match valueWithin fuel room (dropBlanks rest) with
          | none => none
          | some (item, rest) =>
              match held.assign? item path with
              | none => none
              | some held =>
                  match dropBlanks rest with
                  | ',' :: rest => tableItems fuel room held rest
                  | '\x7d' :: rest => some (.closed held, rest)
                  | _ => none
      | _ => none

end

def value : Parser Node := fun text => valueWithin (text.length + 1) depthLimit text

end GameCatalog.Toml
