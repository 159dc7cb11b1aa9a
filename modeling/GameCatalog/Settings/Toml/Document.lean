import GameCatalog.Settings.Toml.Table
import GameCatalog.Settings.Toml.Value

/-!
# TOML texts

A text is a list of statements, one a line: headings, and values for keys of the table under the
last heading. `setting?` answers with the table of all of them.
-/

namespace GameCatalog.Toml

open Text

structure State where
  root : Table
  heading : List String

def statement (state : State) : Parser State
  | '[' :: '[' :: rest => do
      let (path, rest) ← key rest
      match rest with
      | ']' :: ']' :: rest =>
          let root ← state.root.enterNext? path
          let rest ← endLine? rest
          some (⟨root, path⟩, rest)
      | _ => none
  | '[' :: rest => do
      let (path, rest) ← key rest
      match rest with
      | ']' :: rest =>
          let root ← state.root.enter? path
          let rest ← endLine? rest
          some (⟨root, path⟩, rest)
      | _ => none
  | text => do
      let (path, rest) ← key text
      match rest with
      | '=' :: rest =>
          let (value, rest) ← value (dropBlanks rest)
          let root ← state.root.editAt state.heading (Table.assign? value path)
          let rest ← endLine? rest
          some ({ state with root }, rest)
      | _ => none

def statements : Nat → State → List Char → Option State
  | 0, _, _ => none
  | fuel + 1, state, text =>
      match dropSpace text with
      | [] => some state
      | text =>
          match statement state text with
          | some (state, rest) => statements fuel state rest
          | none => none

def setting? (text : String) : Option Setting :=
  let chars := match text.toList with
    | '\ufeff' :: rest => rest
    | chars => chars
  (statements (chars.length + 1) ⟨[], []⟩ chars).bind fun state => Table.setting? state.root

end GameCatalog.Toml
