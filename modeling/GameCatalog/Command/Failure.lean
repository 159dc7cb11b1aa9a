import GameCatalog.Files.CatalogFile

/-!
# Failures of commands

A failure says what the command was doing and lists the causes, from the nearest one on. A text of
the wrong form has its particulars as the last cause.
-/

namespace GameCatalog

/-- `particulars` is what is wrong inside a text; it counts as the last cause. -/
structure Failure where
  context : String
  causes : List String
  particulars : Option String

namespace Failure

def plain (context : String) : Failure := ⟨context, [], none⟩

def particularsOf : Json.Fault → String
  | .truncated => "the text ends too soon"
  | .malformed => "the text is malformed"
  | .mismatch cause => cause.message

/-- The failure to do what `context` says because of a fault. A fault of the file system has the
system's own words as a cause of its own. -/
def ofFault (context : String) (fault : CatalogFault) : Failure :=
  match fault with
  | .unreadable _ cause => ⟨context, [fault.message, cause.text], none⟩
  | .malformed _ cause => ⟨context, [fault.message], some (particularsOf cause)⟩
  | _ => ⟨context, [fault.message], none⟩

def causeLines (first others cause : String) : List String :=
  match cause.splitOn "\n" with
  | [] => []
  | line :: lines => (first ++ line) :: lines.map (others ++ ·)

def numberedLines (n : Nat) : List String → List String
  | [] => []
  | cause :: rest => causeLines s!"    {n}: " "       " cause ++ numberedLines (n + 1) rest

/-- The lines of a report without particulars. A cause has a number unless it is the only one. -/
def lines (failure : Failure) : List String :=
  let heading := s!"Error: {failure.context}".splitOn "\n"
  match failure.causes, failure.particulars with
  | [], none => heading
  | [cause], none => heading ++ ["", "Caused by:"] ++ causeLines "    " "    " cause
  | causes, _ => heading ++ ["", "Caused by:"] ++ numberedLines 0 causes

def report (failure : Failure) : List String :=
  failure.lines ++ match failure.particulars with
    | none => []
    | some cause => numberedLines failure.causes.length [cause]

/-! ## Summaries -/

def textBefore? (part : List Char) : List Char → Option (List Char)
  | [] => if part.isEmpty then some [] else none
  | c :: rest =>
      if part.isPrefixOf (c :: rest) then some [] else (textBefore? part rest).map (c :: ·)

def malformedMark : List Char := "malformed JSON in ".toList

def malformedLine? (line : String) : Option String :=
  (textBefore? malformedMark line.toList).map fun before =>
    let start := before ++ malformedMark
    let path := line.toList.drop start.length
    String.ofList (start ++ (textBefore? [':', ' '] path).getD path)

def lastLine? (line : String) : Option String :=
  if line.startsWith "Error: failed to read config file " then some line else malformedLine? line

def upToLast : List String → List String
  | [] => []
  | line :: rest =>
      match lastLine? line with
      | some last => [last]
      | none => line :: upToLast rest

/-- The lines of a report without what is wrong inside a text. -/
def summary (failure : Failure) : List String := upToLast failure.lines

end Failure

end GameCatalog
