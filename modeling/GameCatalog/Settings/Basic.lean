import GameCatalog.Catalog.Carry
import GameCatalog.Catalog.Text
import GameCatalog.Catalog.Unwrap
import GameCatalog.Files.Path
import GameCatalog.Settings.Name

/-!
# Settings

What commands fall back on when they are given no arguments. Defaults are overridden by the
configuration file, and both by the variables of the environment whose names start with `PLAYBOOK_`.
Letter case does not matter in the names of settings, and unknown names are ignored. A name may lead
to a part of a setting, which then overrides that part alone, and tables are merged.
-/

namespace GameCatalog

structure Settings where
  mainFile : Path
  indent : Nat
  carryField : String
  unwrapFields : List String
deriving DecidableEq

namespace Settings

def default : Settings where
  mainFile := "src/living_playbook.json"
  indent := defaultIndent
  carryField := defaultCarryField
  unwrapFields := defaultUnwrapFields

/-! ## Names and layers -/

def settingName? (variableName : String) : Option String :=
  let name := Text.lowerCase variableName
  if name.startsWith "playbook_" then some (String.ofList (name.toList.drop 9)) else none

/-- The setting in a variable. Only the list of fields to unwrap is split at its commas, and only
where the text is no switch and no number. -/
def ofVariable (name text : String) : Setting :=
  match Scalar.ofWord? text with
  | some scalar => .scalar scalar
  | none =>
      if name = "flatten_fields" then
        .list ((text.toList.splitOn ',').map fun part => .scalar (.text (String.ofList part)))
      else .scalar (.text text)

abbrev Layer := List (SettingName × Setting)

def ofEnvironment (environment : List (String × String)) : Layer :=
  environment.filterMap fun (variableName, text) =>
    (settingName? variableName).map fun name => (.ofText name, ofVariable name text)

def ofFile (settings : Setting.Members) : Layer :=
  settings.map fun (name, value) => (.ofText name, value)

def tableOf (layer : Layer) : Setting.Members :=
  (layer.foldl (fun held (name, value) => Setting.put value name held) (Setting.table [])).members

/-! ## Conversion -/

def text? : Setting → Option String
  | .scalar value => some value.toText
  | _ => none

def path? (setting : Setting) : Option Path := (text? setting).map .ofText

def natural? : Setting → Option Nat
  | .scalar value => value.toNatural?
  | _ => none

def texts? : Setting → Option (List String)
  | .list items => items.mapM text?
  | _ => none

def valueOr (fallback : α) (convert : Setting → Option α) : Option Setting → Option α
  | none => some fallback
  | some setting => convert setting

def ofLayer? (layer : Layer) : Option Settings := do
  let table := tableOf layer
  let mainFile ← valueOr default.mainFile path? (table.lookup "main_file")
  let indent ← valueOr default.indent natural? (table.lookup "indent")
  let carryField ← valueOr default.carryField text? (table.lookup "carry_field")
  let unwrapFields ← valueOr default.unwrapFields texts? (table.lookup "flatten_fields")
  some { mainFile, indent, carryField, unwrapFields }

end Settings

end GameCatalog
