import GameCatalog.Command.Basic

/-!
# The command line

Words are read from left to right. A word that starts with a dash names an option, which takes its
value from the same word or from the next one; after `--` every word is an operand. The option for
the configuration file may stand before or after the name of the command, and then the later place
counts. Paths are not empty, and only the options that make a list may come twice.
-/

namespace GameCatalog

inductive Invocation where
  | showVersion
  | perform (config : Path) (command : Command)
deriving DecidableEq

inductive OptionKind where
  | flag
  | path
  | field
  | fieldList
deriving DecidableEq

abbrev Options := List (String × OptionKind)

namespace Arguments

/-- What has been read of one part of the command line: options in reverse order, and operands in
reverse order. A flag counts as an option with an empty value. -/
structure Parsed where
  options : List (String × String)
  operands : List String
deriving DecidableEq

namespace Parsed

def empty : Parsed := ⟨[], []⟩

def add (parsed : Parsed) (name : String) (kind : OptionKind) (value : String) :
    Option Parsed :=
  if kind ≠ .fieldList ∧ (parsed.options.lookup name).isSome then none
  else if kind = .path ∧ value = "" then none
  else some { parsed with options := (name, value) :: parsed.options }

def addOperand (parsed : Parsed) (operand : String) : Option Parsed :=
  if operand = "" then none else some { parsed with operands := operand :: parsed.operands }

def addOperands (parsed : Parsed) : List String → Option Parsed
  | [] => some parsed
  | operand :: rest => do
      let parsed ← parsed.addOperand operand
      parsed.addOperands rest

def value? (parsed : Parsed) (name : String) : Option String := parsed.options.lookup name

def path? (parsed : Parsed) (name : String) : Option Path := (parsed.value? name).map .ofText

def has (parsed : Parsed) (name : String) : Bool := (parsed.value? name).isSome

def values (parsed : Parsed) (name : String) : List String :=
  (parsed.options.reverse.filter fun option => option.1 = name).map (·.2)

end Parsed

def isOptionWord (word : String) : Bool := word.startsWith "-" && word ≠ "-"

def splitOption (word : String) : String × Option String :=
  match word.toList with
  | '-' :: '-' :: rest =>
      let name := String.ofList (rest.takeWhile (· ≠ '='))
      match rest.dropWhile (· ≠ '=') with
      | [] => (name, none)
      | _ :: value => (name, some (String.ofList value))
  | '-' :: 'c' :: '=' :: value => ("config", some (String.ofList value))
  | ['-', 'c'] => ("config", none)
  | '-' :: 'c' :: value => ("config", some (String.ofList value))
  | _ => ("", none)

/-- The option of a word, read with the words after it: its name and kind, its value, and the words
that are left. -/
def takeOption (options : Options) (word : String) (rest : List String) :
    Option ((String × OptionKind × String) × List String) :=
  let (name, attached) := splitOption word
  match options.lookup name, attached, rest with
  | none, _, _ => none
  | some .flag, none, rest => some ((name, .flag, ""), rest)
  | some .flag, some _, _ => none
  | some kind, some value, rest => some ((name, kind, value), rest)
  | some kind, none, value :: rest =>
      if isOptionWord value then none else some ((name, kind, value), rest)
  | some _, none, [] => none

def parseWords (options : Options) : Nat → Parsed → List String → Option Parsed
  | _, parsed, [] => some parsed
  | 0, _, _ :: _ => none
  | fuel + 1, parsed, word :: rest =>
      if word = "--" then parsed.addOperands rest
      else if isOptionWord word then do
        let ((name, kind, value), rest) ← takeOption options word rest
        let parsed ← parsed.add name kind value
        parseWords options fuel parsed rest
      else do
        let parsed ← parsed.addOperand word
        parseWords options fuel parsed rest

def sharedOptions : Options := [("config", .path)]

def commandOptions? (name : String) : Option Options :=
  if name = "changelog" ∨ name = "sort" then some []
  else if name = "assign-uids" then some [("main", .path), ("strict", .flag)]
  else if name = "carry-forward" then some [("old", .path), ("new", .path), ("field", .field)]
  else if name = "flatten" then some [("field", .fieldList)]
  else none

def command? (name : String) (parsed : Parsed) : Option Command :=
  let operands := parsed.operands.reverse
  if name = "changelog" then
    match operands with
    | [old, new] => some (.changelog old new)
    | _ => none
  else if name = "assign-uids" then
    some (.assignUids (parsed.path? "main") (parsed.has "strict") (operands.map .ofText))
  else if name = "sort" then some (.sort (operands.map .ofText))
  else if name = "carry-forward" then
    match operands, parsed.value? "old" with
    | [], some old => some (.carry old (parsed.path? "new") (parsed.value? "field"))
    | _, _ => none
  else if name = "flatten" then
    match operands with
    | [] => some (.unwrap (parsed.values "field") none)
    | [file] => some (.unwrap (parsed.values "field") (some file))
    | _ => none
  else none

def defaultConfig : String := "playbook.toml"

def asksVersion (word : String) : Bool := word = "--version" || word.startsWith "-V"

def parseFrom : Nat → Parsed → List String → Option Invocation
  | _, _, [] => none
  | 0, _, _ :: _ => none
  | fuel + 1, parsed, word :: rest =>
      if asksVersion word then some .showVersion
      else if isOptionWord word then do
        let ((name, kind, value), rest) ← takeOption sharedOptions word rest
        let parsed ← parsed.add name kind value
        parseFrom fuel parsed rest
      else do
        let options ← commandOptions? word
        let own ← parseWords (sharedOptions ++ options) rest.length .empty rest
        let command ← command? word own
        let config := ((own.value? "config").or (parsed.value? "config")).getD defaultConfig
        some (.perform config command)

def parse (words : List String) : Option Invocation := parseFrom words.length .empty words

end Arguments

end GameCatalog
