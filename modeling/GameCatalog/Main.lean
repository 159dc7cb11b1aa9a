import GameCatalog.Command.Program

/-!
# The command line program

Plays scripts on real files: reads and writes them, shows notices and failures on standard error,
and prints the rest on standard output.
-/

namespace GameCatalog

def FileFault.ofSystem (details : String) (code : UInt32) : FileFault :=
  .system (String.ofList (match details.toList with
    | first :: rest => first.toUpper :: rest
    | [] => [])) code.toInt32.toInt.natAbs

def FileFault.ofError : IO.Error → FileFault
  | .noFileOrDirectory _ _ _ => .notFound
  | .permissionDenied _ code details | .inappropriateType _ code details
  | .resourceExhausted _ code details | .invalidArgument _ code details =>
      .ofSystem details code
  | .otherError code details | .hardwareFault code details => .ofSystem details code
  | error => .system (toString error) 0

def FileFault.notText : FileFault := .system "Invalid or incomplete multibyte or wide character" 84

/-- The answer of an action on the file of a path, its errors as faults. The action is given the path
as text, and a path that is none has a fault. -/
def attempt (path : Path) (action : String → IO α) : IO (Except FileFault α) := do
  match FileFault.ofPath? path, Text.ofUtf8? path.bytes with
  | some fault, _ => return .error fault
  | none, none => return .error .notText
  | none, some text =>
      try
        let value ← action text
        return .ok value
      catch error => return .error (.ofError error)

def readText (path : Path) : IO (Except FileFault String) := do
  match ← attempt path fun text => IO.FS.readBinFile text with
  | .error fault => return .error fault
  | .ok bytes =>
      match String.fromUTF8? bytes with
      | some text => return .ok text
      | none => return .error .notUtf8

def isThere (entry : IO.FS.DirEntry) : IO Bool := do
  try
    let _ ← entry.path.symlinkMetadata
    return true
  catch _ => return false

/-- The names in a directory that are text. A name that is none comes with replacement characters,
and nothing is found under it. -/
def listNames (path : Path) : IO (Except FileFault (List Name)) :=
  attempt path fun text => do
    let directory := (← IO.currentDir) / text
    let entries ← directory.readDir
    let found ← entries.toList.filterM isThere
    return (found.map fun entry => Text.utf8 entry.fileName).eraseDups

def Script.play (filter : LogFilter) : Script α → IO (Except Failure α)
  | .done value => return .ok value
  | .fail failure => return .error failure
  | .note notice next => do
      if filter.shows notice then IO.eprintln notice.line
      next.play filter
  | .print text next => do
      IO.print text
      next.play filter
  | .read path next => do
      let answer ← readText path
      (next answer).play filter
  | .list path next => do
      let answer ← listNames path
      (next answer).play filter
  | .write path text next => do
      let answer ← attempt path fun name => IO.FS.writeFile name text
      (next answer).play filter

def settingVariables : List String :=
  ["MAIN_FILE", "INDENT", "CARRY_FIELD", "FLATTEN_FIELDS"].flatMap fun name =>
    [s!"PLAYBOOK_{name}", Text.lowerCase s!"PLAYBOOK_{name}"]

def readEnvironment : IO (List (String × String)) :=
  (Program.filterVariable :: settingVariables).filterMapM fun name => do
    return (← IO.getEnv name).map fun text => (name, text)

def usage : List String :=
  [ "usage: playbook [--config FILE] COMMAND",
    "",
    "commands:",
    "  changelog OLD NEW",
    "  assign-uids [--main FILE] [--strict] [SECONDARY...]",
    "  sort [FILE...]",
    "  carry-forward --old FILE [--new FILE] [--field NAME]",
    "  flatten [--field NAME...] [FILE]" ]

end GameCatalog

def main (words : List String) : IO UInt32 := do
  match GameCatalog.Arguments.parse words with
  | none =>
      GameCatalog.usage.forM IO.eprintln
      return 2
  | some invocation =>
      let environment ← GameCatalog.readEnvironment
      let (filter, lines) := GameCatalog.Program.logFilter environment
      lines.forM IO.eprintln
      match ← (GameCatalog.Program.script environment invocation).play filter with
      | .ok () => return 0
      | .error failure =>
          failure.report.forM IO.eprintln
          return 1
