import GameCatalog.Command.Program
import GameCatalog.Proofs.Rerun
import GameCatalog.Proofs.SettingLayers
import GameCatalog.Proofs.VariableTexts

/-!
# Settings from variables

A variable of the environment stands in for an option that the command line leaves out. The option
does not get the text of the variable as it is, though: a text that has the form of a switch or a
number is read as one and written anew, and such a text is no list of names.
-/

namespace GameCatalog

namespace Settings

open Setting

/-! ## One variable among others -/

/-- A variable sets a member of the table of all settings, or a part of it. -/
def Sets (variableName key : String) : Prop :=
  ∃ name, settingName? variableName = some name ∧ (SettingName.ofText name).key? = some key

/-- A variable sets the whole member of a key. -/
structure SetsAll (variableName key : String) : Prop where
  named : settingName? variableName = some key
  whole : SettingName.ofText key = [.member key]
  lower : Text.lowerCase key = key

theorem setsAll_settings : ∀ pair ∈ [("PLAYBOOK_CARRY_FIELD", "carry_field"),
    ("PLAYBOOK_MAIN_FILE", "main_file"), ("PLAYBOOK_FLATTEN_FIELDS", "flatten_fields")],
    SetsAll pair.1 pair.2 := by
  have facts : ∀ pair ∈ [("PLAYBOOK_CARRY_FIELD", "carry_field"),
      ("PLAYBOOK_MAIN_FILE", "main_file"), ("PLAYBOOK_FLATTEN_FIELDS", "flatten_fields")],
      settingName? pair.1 = some pair.2 ∧ pair.2.toList.all SettingName.isNameChar ∧
        Text.lowerCase pair.2 = pair.2 ∧ pair.2 ≠ "" := by decide +kernel
  intro pair hm
  obtain ⟨named, plain, lower, nonempty⟩ := facts pair hm
  exact ⟨named, SettingName.ofText_of_isNameChar nonempty plain, lower⟩

variable {before after : List (String × String)} {variableName key text : String} {file : Layer}
  {base settings : Settings}

theorem ofEnvironment_append (before after : List (String × String)) :
    ofEnvironment (before ++ after) = ofEnvironment before ++ ofEnvironment after :=
  List.filterMap_append

theorem ofEnvironment_cons (all : SetsAll variableName key) (text : String)
    (after : List (String × String)) :
    ofEnvironment ((variableName, text) :: after) =
      ([.member key], ofVariable key text) :: ofEnvironment after := by
  simp [ofEnvironment, all.named, all.whole]

theorem leadsElsewhere_ofEnvironment (others : ∀ later ∈ after, ¬Sets later.1 key) :
    ∀ entry ∈ ofEnvironment after, LeadsElsewhere key entry := by
  intro entry hm
  obtain ⟨later, hlater, he⟩ := List.mem_filterMap.mp hm
  obtain ⟨name, named, rfl⟩ := Option.map_eq_some_iff.mp he
  obtain ⟨other, leads⟩ := SettingName.exists_key? name
  exact ⟨other, leads, fun same => others later hlater ⟨name, named, same ▸ leads⟩⟩

/-- A variable decides its member, whatever the file says. -/
theorem lookup_variable (all : SetsAll variableName key)
    (others : ∀ other ∈ before ++ after, ¬Sets other.1 key) (name : String) :
    (tableOf (file ++ ofEnvironment (before ++ (variableName, text) :: after))).lookup name =
      if name = key then some (ofVariable key text)
      else (tableOf (file ++ ofEnvironment (before ++ after))).lookup name := by
  have edits : ∀ setting, put (ofVariable key text) [.member key] setting =
      .table (setting.members.edit key fun _ => ofVariable key text) := by
    intro setting
    rw [put, give, all.lower]
    exact ofVariable_ne_table key text
  rw [ofEnvironment_append, ofEnvironment_append, ofEnvironment_cons all, ← List.append_assoc,
    ← List.append_assoc]
  have behind : ∀ later ∈ after, ¬Sets later.1 key :=
    fun later hm => others later (List.mem_append_right before hm)
  exact lookup_tableOf edits (leadsElsewhere_ofEnvironment behind) name

theorem ofLayer?_eq_some_iff {layer : Layer} :
    ofLayer? layer = some settings ↔
      valueOr default.mainFile path? ((tableOf layer).lookup "main_file") =
          some settings.mainFile ∧
        valueOr default.indent natural? ((tableOf layer).lookup "indent") = some settings.indent ∧
        valueOr default.carryField text? ((tableOf layer).lookup "carry_field") =
          some settings.carryField ∧
        valueOr default.unwrapFields texts? ((tableOf layer).lookup "flatten_fields") =
          some settings.unwrapFields := by
  simp only [ofLayer?, Option.bind_eq_bind, Option.bind_eq_some_iff]
  constructor
  · rintro ⟨mainFile, h, indent, h', carryField, h'', unwrapFields, h''', he⟩
    cases he
    exact ⟨h, h', h'', h'''⟩
  · rintro ⟨h, h', h'', h'''⟩
    exact ⟨_, h, _, h', _, h'', _, h''', rfl⟩

section Loaded

variable (loaded : ofLayer? (file ++ ofEnvironment (before ++ after)) = some base)

include loaded

theorem ofLayer?_carryField (all : SetsAll variableName "carry_field")
    (others : ∀ other ∈ before ++ after, ¬Sets other.1 "carry_field") :
    ofLayer? (file ++ ofEnvironment (before ++ (variableName, text) :: after)) =
      some { base with carryField := readAs text } := by
  rw [ofLayer?_eq_some_iff] at loaded ⊢
  simpa [lookup_variable all others, valueOr, text?_ofVariable] using
    ⟨loaded.1, loaded.2.1, loaded.2.2.2⟩

theorem ofLayer?_mainFile (all : SetsAll variableName "main_file")
    (others : ∀ other ∈ before ++ after, ¬Sets other.1 "main_file") :
    ofLayer? (file ++ ofEnvironment (before ++ (variableName, text) :: after)) =
      some { base with mainFile := readAs text } := by
  rw [ofLayer?_eq_some_iff] at loaded ⊢
  simpa [lookup_variable all others, valueOr, path?, text?_ofVariable] using loaded.2

theorem ofLayer?_unwrapFields (all : SetsAll variableName "flatten_fields")
    (others : ∀ other ∈ before ++ after, ¬Sets other.1 "flatten_fields") :
    ofLayer? (file ++ ofEnvironment (before ++ (variableName, text) :: after)) =
      (readAsList? text).map fun fields => { base with unwrapFields := fields } := by
  cases read : readAsList? text with
  | some fields =>
      rw [Option.map_some]
      rw [ofLayer?_eq_some_iff] at loaded ⊢
      simpa [lookup_variable all others, valueOr, texts?_ofVariable, read] using
        ⟨loaded.1, loaded.2.1, loaded.2.2.1⟩
  | none =>
      rw [Option.map_none, Option.eq_none_iff_forall_ne_some]
      intro settings found
      have converts := (ofLayer?_eq_some_iff.mp found).2.2.2
      rw [lookup_variable all others, if_pos rfl, valueOr, texts?_ofVariable, read] at converts
      cases converts

end Loaded

/-! ## Loading -/

theorem run_readFirst (config : Path) (paths : List Path) (files : FileTree) :
    (readFirst config paths).run files =
      ⟨files, "", [], ((readFirst config paths).run files).answer⟩ := by
  induction paths with
  | nil => rfl
  | cons path rest ih =>
      simp only [readFirst, Script.run]
      split
      · split <;> rfl
      · exact ih

/-- One settings file counts for every environment. -/
theorem exists_layer {config : Path} {environment : List (String × String)} {files : FileTree}
    (loads : ((load config environment).run files).answer = .ok base) :
    ∃ file, ofLayer? (file ++ ofEnvironment environment) = some base ∧
      ∀ other, (load config other).run files = ⟨files, "", [],
        match ofLayer? (file ++ ofEnvironment other) with
        | some settings => .ok settings
        | none => .error (.plain "failed to deserialise settings")⟩ := by
  have unfolded : ∀ other, (load config other).run files =
      ((readFirst config (candidates config)).run files).andThen fun file =>
        match ofLayer? (file ++ ofEnvironment other) with
        | some settings => .done settings
        | none => .fail (.plain "failed to deserialise settings") :=
    fun other => Script.run_bind _ _ _
  rw [unfolded, run_readFirst] at loads
  cases answer : ((readFirst config (candidates config)).run files).answer with
  | error failure =>
      rw [answer] at loads
      cases loads
  | ok file =>
      rw [answer] at loads
      refine ⟨file, ?_, fun other => ?_⟩
      · simp only [Script.Run.andThen] at loads
        split at loads
        next settings found => rw [found, Except.ok.inj loads]
        next => cases loads
      · rw [unfolded, run_readFirst, answer]
        simp only [Script.Run.andThen]
        cases ofLayer? (file ++ ofEnvironment other) <;> rfl

theorem run_load {config : Path} {environment : List (String × String)} {files : FileTree}
    (loads : ((load config environment).run files).answer = .ok base) :
    (load config environment).run files = ⟨files, "", [], .ok base⟩ := by
  obtain ⟨file, loaded, layered⟩ := exists_layer loads
  rw [layered, loaded]

end Settings

/-! ## Commands -/

namespace Command

/-- The command with a path where it names none. -/
def withMain (path : Path) : Command → Command
  | .assignUids none strict secondary => .assignUids (some path) strict secondary
  | .sort [] => .sort [path]
  | .carry old none field => .carry old (some path) field
  | .unwrap fields none => .unwrap fields (some path)
  | command => command

def withField (field : String) : Command → Command
  | .carry old new none => .carry old new (some field)
  | command => command

def withFields (fields : List String) : Command → Command
  | .unwrap [] file => .unwrap fields file
  | command => command

theorem script_withMain (settings : Settings) (path : Path) (command : Command) :
    (command.withMain path).script settings =
      command.script { settings with mainFile := path } := by
  cases command with
  | changelog old new => rfl
  | assignUids main strict secondary => cases main <;> rfl
  | sort files => cases files <;> rfl
  | carry old new field => cases new <;> rfl
  | unwrap fields file => cases file <;> rfl

theorem script_withField (settings : Settings) (field : String) (command : Command) :
    (command.withField field).script settings =
      command.script { settings with carryField := field } := by
  cases command with
  | carry old new given => cases given <;> rfl
  | changelog | assignUids | sort | unwrap => rfl

theorem script_withFields (settings : Settings) {fields : List String} (nonempty : fields ≠ [])
    (command : Command) :
    (command.withFields fields).script settings =
      command.script { settings with unwrapFields := fields } := by
  cases command with
  | unwrap given file =>
      cases given with
      | nil =>
          obtain ⟨first, rest, rfl⟩ := List.exists_cons_of_ne_nil nonempty
          rfl
      | cons => rfl
  | changelog | assignUids | sort | carry => rfl

end Command

namespace Program

open Settings

variable {config : Path} {environment before after : List (String × String)} {files : FileTree}
  {base settings : Settings}

theorem run_script_eq (config : Path) (environment : List (String × String))
    (command : Command) (files : FileTree) :
    (script environment (.perform config command)).run files =
      ((load config environment).run files).andThen fun settings => command.script settings :=
  Script.run_bind _ _ _

theorem run_script (loaded : (load config environment).run files = ⟨files, "", [], .ok settings⟩)
    (command : Command) :
    (script environment (.perform config command)).run files =
      (command.script settings).run files := by
  rw [run_script_eq, loaded]
  simp [Script.Run.andThen]

theorem run_script_of_error {failure : Failure}
    (loaded : (load config environment).run files = ⟨files, "", [], .error failure⟩)
    (command : Command) :
    (script environment (.perform config command)).run files = ⟨files, "", [], .error failure⟩ := by
  rw [run_script_eq, loaded]
  rfl

/-- Settings that differ in what another command is given make no difference between the two. -/
theorem run_script_overridden {others : List (String × String)} {command filled : Command}
    (loads : ((load config others).run files).answer = .ok base)
    (overrides : ∀ file, ofLayer? (file ++ ofEnvironment others) = some base →
      ofLayer? (file ++ ofEnvironment environment) = some settings)
    (same : filled.script base = command.script settings) :
    (script environment (.perform config command)).run files =
      (script others (.perform config filled)).run files := by
  obtain ⟨file, loaded, layered⟩ := exists_layer loads
  rw [run_script (run_load loads), same]
  exact run_script (by rw [layered, overrides file loaded]) command

section Variables

variable (command : Command) (text : String)
  (loads : ((load config (before ++ after)).run files).answer = .ok base)

include loads

theorem run_script_carryField (others : ∀ other ∈ before ++ after, ¬Sets other.1 "carry_field") :
    (script (before ++ ("PLAYBOOK_CARRY_FIELD", text) :: after) (.perform config command)).run
        files =
      (script (before ++ after) (.perform config (command.withField (readAs text)))).run files := by
  have all := setsAll_settings ("PLAYBOOK_CARRY_FIELD", "carry_field") (by simp)
  exact run_script_overridden loads (fun _ loaded => ofLayer?_carryField loaded all others)
    (Command.script_withField base (readAs text) command)

theorem run_script_mainFile (others : ∀ other ∈ before ++ after, ¬Sets other.1 "main_file") :
    (script (before ++ ("PLAYBOOK_MAIN_FILE", text) :: after) (.perform config command)).run files =
      (script (before ++ after)
        (.perform config (command.withMain (readAs text : String)))).run files := by
  have all := setsAll_settings ("PLAYBOOK_MAIN_FILE", "main_file") (by simp)
  exact run_script_overridden loads (fun _ loaded => ofLayer?_mainFile loaded all others)
    (Command.script_withMain base (readAs text : String) command)

theorem run_script_unwrapFields (others : ∀ other ∈ before ++ after, ¬Sets other.1 "flatten_fields") :
    (script (before ++ ("PLAYBOOK_FLATTEN_FIELDS", text) :: after) (.perform config command)).run
        files =
      match readAsList? text with
      | some fields =>
          (script (before ++ after) (.perform config (command.withFields fields))).run files
      | none => ⟨files, "", [], .error (.plain "failed to deserialise settings")⟩ := by
  have all := setsAll_settings ("PLAYBOOK_FLATTEN_FIELDS", "flatten_fields") (by simp)
  split
  next fields found =>
    refine run_script_overridden loads (fun _ loaded => ?_)
      (Command.script_withFields base (ne_nil_of_readAsList? found) command)
    rw [ofLayer?_unwrapFields loaded all others, found]
    rfl
  next missing =>
    obtain ⟨file, loaded, layered⟩ := exists_layer loads
    refine run_script_of_error ?_ command
    rw [layered, ofLayer?_unwrapFields loaded all others, missing]
    rfl

/-- Where the settings load without a variable, a command does with it what it does without it when
it is given the missing option: the field to carry or the main path is the text that the variable is
read as, and the fields to unwrap are the parts of its text. A text that has the form of a switch or
a number stands for no list, and no command runs then. -/
theorem run_script_variables :
    let run := fun environment command => (script environment (.perform config command)).run files
    ((∀ other ∈ before ++ after, ¬Sets other.1 "carry_field") →
      run (before ++ ("PLAYBOOK_CARRY_FIELD", text) :: after) command =
        run (before ++ after) (command.withField (readAs text))) ∧
    ((∀ other ∈ before ++ after, ¬Sets other.1 "main_file") →
      run (before ++ ("PLAYBOOK_MAIN_FILE", text) :: after) command =
        run (before ++ after) (command.withMain (readAs text : String))) ∧
    ((∀ other ∈ before ++ after, ¬Sets other.1 "flatten_fields") →
      run (before ++ ("PLAYBOOK_FLATTEN_FIELDS", text) :: after) command =
        match readAsList? text with
        | some fields => run (before ++ after) (command.withFields fields)
        | none => ⟨files, "", [], .error (.plain "failed to deserialise settings")⟩) :=
  ⟨run_script_carryField command text loads, run_script_mainFile command text loads,
    run_script_unwrapFields command text loads⟩

end Variables

/-- A settings file that names a field of digits, and nothing else. -/
def digitSettings : FileTree :=
  .ofTexts [("playbook.toml", "carry_field = \"007\"\n")]

theorem load_digitSettings :
    ((load "playbook.toml" ([("PLAYBOOK_INDENT", "2")] ++ [("RUST_LOG", "info")])).run
      digitSettings).answer = .ok { Settings.default with indent := 2, carryField := "007" } :=
  toOption_eq_some_iff.mp (by decide +kernel)

/-- The file gives the field as it is; from a variable the same digits name another field, a number
with a point names another path, and one field of digits is no list while two are. -/
theorem run_script_variables_digits :
    let others := [("PLAYBOOK_INDENT", "2")] ++ [("RUST_LOG", "info")]
    let among := fun entry => [("PLAYBOOK_INDENT", "2")] ++ entry :: [("RUST_LOG", "info")]
    let run := fun environment command =>
      (script environment (.perform "playbook.toml" command)).run digitSettings
    ((load "playbook.toml" others).run digitSettings).answer =
        .ok { Settings.default with indent := 2, carryField := "007" } ∧
      run (among ("PLAYBOOK_CARRY_FIELD", "007")) (.carry "old.json" none none) =
        run others (.carry "old.json" none (some "7")) ∧
      run (among ("PLAYBOOK_MAIN_FILE", "1.0")) (.sort []) = run others (.sort ["1"]) ∧
      run (among ("PLAYBOOK_FLATTEN_FIELDS", "007")) (.unwrap [] none) =
        ⟨digitSettings, "", [], .error (.plain "failed to deserialise settings")⟩ ∧
      run (among ("PLAYBOOK_FLATTEN_FIELDS", "007,1.0")) (.unwrap [] none) =
        run others (.unwrap ["007", "1.0"] none) := by
  intro others among run
  have elsewhere : ∀ key ≠ "indent", ∀ other ∈ others, ¬Sets other.1 key := by
    intro key hkey
    refine List.forall_mem_cons.mpr ⟨?_, List.forall_mem_singleton.mpr ?_⟩
    · rintro ⟨name, named, leads⟩
      rw [show settingName? "PLAYBOOK_INDENT" = some "indent" by decide +kernel] at named
      rw [← Option.some.inj named,
        show (SettingName.ofText "indent").key? = some "indent" by decide +kernel] at leads
      exact hkey (Option.some.inj leads).symm
    · rintro ⟨name, named, -⟩
      rw [show settingName? "RUST_LOG" = none by decide +kernel] at named
      cases named
  obtain ⟨carries, -, -⟩ := run_script_variables (.carry "old.json" none none) "007"
    load_digitSettings
  obtain ⟨-, sorts, -⟩ := run_script_variables (.sort []) "1.0" load_digitSettings
  obtain ⟨-, -, fails⟩ := run_script_variables (.unwrap [] none) "007" load_digitSettings
  obtain ⟨-, -, unwraps⟩ := run_script_variables (.unwrap [] none) "007,1.0" load_digitSettings
  refine ⟨load_digitSettings, ?_, ?_, ?_, ?_⟩
  · rw [show run (among ("PLAYBOOK_CARRY_FIELD", "007")) _ = _ from
        carries (elsewhere _ (by decide)),
      show readAs "007" = "7" by decide +kernel]
    rfl
  · rw [show run (among ("PLAYBOOK_MAIN_FILE", "1.0")) _ = _ from sorts (elsewhere _ (by decide)),
      show readAs "1.0" = "1" by decide +kernel]
    rfl
  · rw [show run (among ("PLAYBOOK_FLATTEN_FIELDS", "007")) _ = _ from
        fails (elsewhere _ (by decide)),
      show readAsList? "007" = none by decide +kernel]
  · rw [show run (among ("PLAYBOOK_FLATTEN_FIELDS", "007,1.0")) _ = _ from
        unwraps (elsewhere _ (by decide)),
      show readAsList? "007,1.0" = some ["007", "1.0"] by decide +kernel]
    rfl

/-- A game with values in two fields whose names are the same number. -/
def scored : Catalog :=
  .new ⟨2024, 1, 0⟩
    [((Record.named "Go" (Uid.ofInt? 7)).set "7" (.str "three")).set "007" (.str "four")]

theorem ofText_scored : Catalog.ofText (scored.text 2) = .ok scored := by
  have fields : (((Record.named "Go" (Uid.ofInt? 7)).set "7" (.str "three")).set "007"
      (.str "four")).fields = [("name", .str "Go"), ("uid", .num (.int 7 (by decide))),
        ("7", .str "three"), ("007", .str "four")] := by rfl
  refine (Catalog.restorable_new ?_ ?_).ofText_text 2
  · simp [fields, Json.nestingLimit, -Prod.forall]
  · simp [fields, Json.Value.floats, Json.Value.memberFloats]

def scoreFiles : FileTree :=
  .ofTexts [("old.json", scored.text 2), ("new.json", Command.onlyGo.text 2)]

def carryScores (environment : List (String × String)) (field : Option String) : Script.Run Unit :=
  (script environment (.perform "playbook.toml" (.carry "old.json" (some "new.json") field))).run
    scoreFiles

theorem load_scoreFiles : ((load "playbook.toml" []).run scoreFiles).answer = .ok .default :=
  toOption_eq_some_iff.mp (by decide +kernel)

theorem carryScores_variable :
    carryScores [("PLAYBOOK_CARRY_FIELD", "007")] none = carryScores [] (some "7") := by
  have filled : carryScores ([] ++ ("PLAYBOOK_CARRY_FIELD", "007") :: []) none =
      carryScores ([] ++ []) (some (readAs "007")) :=
    run_script_carryField _ "007" load_scoreFiles (List.forall_mem_nil _)
  rwa [show readAs "007" = "7" by decide +kernel] at filled

theorem script_carry (settings : Settings) (old : Path) (new : Option Path) (field : Option String) :
    (Command.carry old new field).script settings =
      (Command.carryField settings old new field).bind fun _ => .done () := rfl

theorem read_carryScores {field : String}
    (carries : (scored.carry Command.onlyGo field).answer = .ok ⟨1, 0⟩) :
    (carryScores [] (some field)).files.read "new.json" =
      .ok ((scored.carry Command.onlyGo field).catalog.text Settings.default.indent) := by
  have readsOld : scoreFiles.read "old.json" = .ok (scored.text 2) :=
    FileTree.read_of_fileOf? (show _ = some 0 by decide)
  have file : scoreFiles.fileOf? "new.json" = some 1 := by decide
  have readsNew : scoreFiles.read "new.json" = .ok (Command.onlyGo.text 2) :=
    FileTree.read_of_fileOf? file
  have source : Catalog.ofFile "old.json" (scoreFiles.read "old.json") = .ok scored := by
    rw [readsOld]
    exact Catalog.ofFile_of_ofText ofText_scored _
  have target : Catalog.ofFile "new.json" (scoreFiles.read "new.json") = .ok Command.onlyGo := by
    rw [readsNew]
    exact Catalog.ofFile_of_ofText Command.ofText_onlyGo _
  have writes : scoreFiles.WritesBack := FileTree.writesBack_ofTexts _
  obtain ⟨after, hw⟩ := writes "new.json" ⟨_, readsNew⟩
    ((scored.carry Command.onlyGo field).catalog.text Settings.default.indent)
  have yields : (Command.carryField .default "old.json" (some "new.json") (some field)).Yields
      scoreFiles ⟨1, 0⟩ after := by
    refine Command.yields_carryField_iff.mpr ⟨scored, Command.onlyGo, source, target, carries, ?_⟩
    rw [if_pos Nat.one_pos]
    exact hw
  have left : ((Command.carry "old.json" (some "new.json") (some field)).script .default).Yields
      scoreFiles () after := by
    rw [script_carry]
    exact Script.yields_bind_iff.mpr ⟨_, _, yields, Script.yields_done_iff.mpr ⟨rfl, rfl⟩⟩
  rw [carryScores, run_script (run_load load_scoreFiles), left.2,
    FileTree.eq_revise_of_write ⟨_, readsNew⟩ file hw, FileTree.read_revise file readsNew]
  rfl

/-- A field of digits does not reach the command as it is: the variable that names it has the value
of another field carried, where the option has the value of the named one carried. -/
theorem field_of_digits_replaced :
    ((load "playbook.toml" []).run scoreFiles).answer = .ok .default ∧
      (carryScores [("PLAYBOOK_CARRY_FIELD", "007")] none).files.read "new.json" =
        .ok ((scored.carry Command.onlyGo "7").catalog.text Settings.default.indent) ∧
      (carryScores [] (some "007")).files.read "new.json" =
        .ok ((scored.carry Command.onlyGo "007").catalog.text Settings.default.indent) ∧
      carryScores [("PLAYBOOK_CARRY_FIELD", "007")] none ≠ carryScores [] (some "007") := by
  have read : (carryScores [("PLAYBOOK_CARRY_FIELD", "007")] none).files.read "new.json" =
      .ok ((scored.carry Command.onlyGo "7").catalog.text Settings.default.indent) := by
    rw [carryScores_variable]
    exact read_carryScores (by rfl)
  have named : (carryScores [] (some "007")).files.read "new.json" =
      .ok ((scored.carry Command.onlyGo "007").catalog.text Settings.default.indent) :=
    read_carryScores (by rfl)
  have texts_ne : (scored.carry Command.onlyGo "007").catalog.text Settings.default.indent ≠
      (scored.carry Command.onlyGo "7").catalog.text Settings.default.indent := by decide +kernel
  refine ⟨load_scoreFiles, read, named, fun same => texts_ne ?_⟩
  rw [same, named] at read
  exact Except.ok.inj read

end Program

end GameCatalog
