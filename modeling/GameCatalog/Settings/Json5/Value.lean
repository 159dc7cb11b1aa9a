import GameCatalog.Settings.Json5.Scan
import GameCatalog.Settings.Merge

/-!
# JSON5 texts

A text holds one value: a word, a string, a number, an array or an object, whose names are
identifiers or strings. A comma may follow the last item of an array or object. A later member of a
name takes the place of an earlier one.
-/

namespace GameCatalog.Json5

open Text

def name : Parser String
  | [] => none
  | c :: rest => if c = '"' ∨ c = '\'' then string c rest else identifier (c :: rest)

def scalar : Parser Setting := fun text =>
  match after? "null".toList text, after? "true".toList text, after? "false".toList text with
  | some rest, _, _ => some (.absent, rest)
  | _, some rest, _ => some (.scalar (.switch true), rest)
  | _, _, some rest => some (.scalar (.switch false), rest)
  | _, _, _ =>
      match text with
      | [] => none
      | c :: rest =>
          if c = '"' ∨ c = '\'' then (string c rest).map fun (words, rest) =>
            (.scalar (.text words), rest)
          else (number text).map fun (n, rest) => (.scalar n, rest)

mutual

def valueWithin : Nat → Parser Setting
  | 0, _ => none
  | fuel + 1, text =>
      match text with
      | '[' :: rest => itemsWithin fuel [] rest
      | '\x7b' :: rest => membersWithin fuel [] rest
      | text => scalar text

def itemsWithin : Nat → List Setting → Parser Setting
  | 0, _, _ => none
  | fuel + 1, held, text =>
      match dropSpace text with
      | ']' :: rest => some (.list held.reverse, rest)
      | text =>
          match valueWithin fuel text with
          | none => none
          | some (item, rest) =>
              match dropSpace rest with
              | ',' :: rest => itemsWithin fuel (item :: held) rest
              | ']' :: rest => some (.list (item :: held).reverse, rest)
              | _ => none

def membersWithin : Nat → Setting.Members → Parser Setting
  | 0, _, _ => none
  | fuel + 1, held, text =>
      match dropSpace text with
      | '\x7d' :: rest => some (.table held, rest)
      | text =>
          match name text with
          | none => none
          | some (name, rest) =>
              match dropSpace rest with
              | ':' :: rest =>
                  match valueWithin fuel (dropSpace rest) with
                  | none => none
                  | some (item, rest) =>
                      let held := held.set name item
                      match dropSpace rest with
                      | ',' :: rest => membersWithin fuel held rest
                      | '\x7d' :: rest => some (.table held, rest)
                      | _ => none
              | _ => none

end

def setting? (text : String) : Option Setting :=
  let chars := dropSpace text.toList
  match valueWithin (chars.length + 1) chars with
  | some (setting, rest) => if (dropSpace rest).isEmpty then some setting else none
  | none => none

end GameCatalog.Json5
