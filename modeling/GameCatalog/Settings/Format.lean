import GameCatalog.Files.Path
import GameCatalog.Json.Reader
import GameCatalog.Settings.Ini
import GameCatalog.Settings.Json5.Value
import GameCatalog.Settings.Ron.Value
import GameCatalog.Settings.Toml.Document
import GameCatalog.Settings.Yaml.Document

/-!
# Formats of settings files

A settings file is TOML, JSON, YAML, INI, RON or JSON5, as the extension of its name says.
-/

namespace GameCatalog

mutual

/-- The setting that a JSON value stands for. Integers beyond 64 bits with their sign count as
doubles. -/
def Setting.ofJson : Json.Value → Setting
  | .null => .absent
  | .bool on => .scalar (.switch on)
  | .num (.int n _) =>
      if isLong n then .scalar (.int n)
      else match Binary64.ofInt? n with
        | some x => .scalar (.double (.finite x))
        | none => .absent
  | .num (.float x) => .scalar (.double (.finite x))
  | .str text => .scalar (.text text)
  | .arr items => .list (Setting.listOfJson items)
  | .obj members => .table (Setting.membersOfJson members)

def Setting.listOfJson : List Json.Value → List Setting
  | [] => []
  | item :: rest => Setting.ofJson item :: Setting.listOfJson rest

def Setting.membersOfJson : Json.Members → Setting.Members
  | [] => []
  | (name, value) :: rest => (name, Setting.ofJson value) :: Setting.membersOfJson rest

end

/-- The formats, in the order in which files are looked for. -/
inductive SettingsFormat where
  | toml
  | json
  | yaml
  | ini
  | ron
  | json5
deriving DecidableEq

namespace SettingsFormat

def extensions : SettingsFormat → List String
  | .toml => ["toml"]
  | .json => ["json"]
  | .yaml => ["yaml", "yml"]
  | .ini => ["ini"]
  | .ron => ["ron"]
  | .json5 => ["json5"]

def all : List SettingsFormat := [.toml, .json, .yaml, .ini, .ron, .json5]

def allExtensions : List String := all.flatMap extensions

def ofPath? (path : Path) : Option SettingsFormat :=
  path.extension?.bind fun extension =>
    all.find? fun format => (format.extensions.map Text.utf8).contains extension

def setting? (text : String) : SettingsFormat → Option Setting
  | .toml => Toml.setting? text
  | .json =>
      match Json.ofText text with
      | .ok value => some (.ofJson value)
      | .error _ => none
  | .yaml => Yaml.setting? text
  | .ini => Ini.setting? text
  | .ron => Ron.setting? text
  | .json5 => Json5.setting? text

def settings? (text : String) (format : SettingsFormat) : Option Setting.Members :=
  match format.setting? text with
  | some (.table members) => some members
  | _ => none

end SettingsFormat

end GameCatalog
