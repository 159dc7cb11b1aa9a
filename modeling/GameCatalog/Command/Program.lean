import GameCatalog.Command.Arguments
import GameCatalog.Command.LogFilter
import GameCatalog.Settings.Format

/-!
# The program

A run of the program reads its command line, then its settings, then performs the command. Played
on a file tree it leaves the files, what it printed, its exit code and the lines of its reports.
-/

namespace GameCatalog

namespace Settings

def isFile : Except FileFault String → Bool
  | .ok _ | .error .notUtf8 => true
  | .error _ => false

/-- The settings in what a file holds. A file of no format of settings counts as empty, and so does
one that is no text. -/
def ofContents? (path : Path) (contents : Except FileFault String) : Option Layer :=
  match SettingsFormat.ofPath? path, contents with
  | some format, .ok text => (format.settings? text).map ofFile
  | _, _ => some []

def candidates (path : Path) : List Path :=
  path :: SettingsFormat.allExtensions.filterMap path.addExtension?

def readFirst (config : Path) : List Path → Script Layer
  | [] => .done []
  | path :: paths =>
      .read path fun contents =>
        if isFile contents then
          match ofContents? path contents with
          | some settings => .done settings
          | none => .fail (.plain s!"failed to read config file {config}")
        else readFirst config paths

def load (config : Path) (environment : List (String × String)) : Script Settings := do
  let file ← readFirst config (candidates config)
  match ofLayer? (file ++ ofEnvironment environment) with
  | some settings => .done settings
  | none => .fail (.plain "failed to deserialise settings")

end Settings

namespace Program

def versionLine : String := "playbook 0.1.0"

def script (environment : List (String × String)) : Invocation → Script Unit
  | .showVersion => .print (versionLine ++ "\n") (.done ())
  | .perform config command => do
      let settings ← Settings.load config environment
      command.script settings

/-- What a run leaves; a misused command line has no lines of its own here. -/
structure Outcome where
  exitCode : UInt32
  printed : String
  lines : Option (List String)
  files : FileTree

def withoutReturn (line : String) : String :=
  match line.toList.reverse with
  | '\r' :: rest => String.ofList rest.reverse
  | _ => line

def filterVariable : String := "RUST_LOG"

def logFilter (environment : List (String × String)) : LogFilter × List String :=
  LogFilter.ofText ((environment.lookup filterVariable).getD "")

def ofRun (filter : LogFilter × List String) (run : Script.Run Unit) : Outcome :=
  let notices := (run.notices.filter filter.1.shows).map Notice.line
  let shown := (filter.2 ++ notices).flatMap (·.splitOn "\n")
  let outcome := fun (exitCode : UInt32) (lines : List String) =>
    Outcome.mk exitCode run.printed (some (lines.map withoutReturn)) run.files
  match run.answer with
  | .ok () => outcome 0 shown
  | .error failure => outcome 1 (shown ++ failure.summary)

def play (words : List String) (environment : List (String × String)) (files : FileTree) :
    Outcome :=
  match Arguments.parse words with
  | none => ⟨2, "", none, files⟩
  | some invocation =>
      ofRun (logFilter environment) ((script environment invocation).run files)

end Program

end GameCatalog
