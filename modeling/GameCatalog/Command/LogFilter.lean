import GameCatalog.Command.Notice
import GameCatalog.Text.Blank
import GameCatalog.Text.Letter

/-!
# Which notices show

A log filter is a list of rules with commas between them. A rule says how much it lets through of
what certain sources log. It may also ask for a field of the notice, or for a span of work around
it; there are no such spans. Of the rules about a notice the most specific one decides, and of two
equally specific ones the later.
-/

namespace GameCatalog

def Severity.rank : Severity → Nat
  | .error => 1
  | .warn => 2
  | .info => 3
  | .debug => 4

/-- A rule about the notices whose source starts with `source` and that have all the `fields`. One
that is `spanned` is about none. -/
structure LogRule where
  source : String
  fields : List String
  spanned : Bool
  limit : Nat

inductive LogRuleFault where
  | malformed
  | unknownLevel

def LogRuleFault.message : LogRuleFault → String
  | .malformed => "invalid filter directive"
  | .unknownLevel =>
      "error parsing level filter: expected one of \"off\", \"error\", \"warn\", \"info\", " ++
        "\"debug\", \"trace\", or a number 0-5"

namespace LogRule

/-! ## Reading rules -/

def levelWords : List String := ["off", "error", "warn", "info", "debug", "trace"]

def greatestLevel : Nat := 5

def level? (text : List Char) : Option Nat :=
  let digits := match text with
    | '+' :: rest => rest
    | rest => rest
  if digits ≠ [] ∧ digits.all Char.isDigit then
    let n := digits.foldl (fun n c => n * 10 + (c.toNat - '0'.toNat)) 0
    if n ≤ greatestLevel then some n else none
  else levelWords.idxOf? (String.ofList text).toLower

def withLevel (rule : LogRule) : List Char → Except LogRuleFault LogRule
  | [] | ['='] => .ok rule
  | '=' :: text =>
      match level? text with
      | some limit => .ok { rule with limit }
      | none => .error .unknownLevel
  | _ => .error .malformed

/-- The span and the field that a rule asks for, after the bracket, and the end of the rule. A field
with a value is looked for in spans. -/
def withSpan (source : String) (text : List Char) : Except LogRuleFault LogRule :=
  let name := text.takeWhile fun c => c ≠ ']' ∧ c ≠ '\x7b'
  match text.drop name.length with
  | ']' :: rest => withLevel ⟨source, [], true, greatestLevel⟩ rest
  | '\x7b' :: rest =>
      let field := rest.takeWhile fun c => c ≠ '\x7d'
      match field, rest.drop field.length with
      | _ :: _, '\x7d' :: ']' :: rest =>
          let fieldName := String.ofList (field.takeWhile (· ≠ '='))
          let spanned := !name.isEmpty || field.contains '='
          withLevel ⟨source, [fieldName], spanned, greatestLevel⟩ rest
      | _, _ => .error .malformed
  | _ => .error .malformed

def startsSource (c : Char) : Bool :=
  c.isAlphanum || Text.isLetter c || c == '-' || c == ':' || c == '_'

def ofText (text : String) : Except LogRuleFault LogRule :=
  let chars := Text.trim text.toList
  match chars with
  | [] => .error .malformed
  | '[' :: rest => withSpan "" rest
  | c :: _ =>
      if !startsSource c then .error .malformed
      else
        let word := chars.takeWhile fun c => c ≠ '=' ∧ c ≠ '['
        let source := String.ofList word
        match chars.drop word.length with
        | '[' :: rest => withSpan source rest
        | [] =>
            match level? word with
            | some limit => .ok ⟨"", [], false, limit⟩
            | none => .ok ⟨source, [], false, greatestLevel⟩
        | rest => withLevel ⟨source, [], false, greatestLevel⟩ rest

/-! ## Applying rules -/

def isAbout (rule : LogRule) (notice : Notice) : Bool :=
  !rule.spanned && rule.source.toList.isPrefixOf notice.source.toList &&
    rule.fields.all fun name => name == "message" || (notice.fields.lookup name).isSome

def isAsSpecific (rule other : LogRule) : Bool :=
  other.source.length < rule.source.length ||
    (other.source.length == rule.source.length && other.fields.length ≤ rule.fields.length)

end LogRule

abbrev LogFilter := List LogRule

namespace LogFilter

def standard : LogFilter := [⟨"", [], false, Severity.info.rank⟩]

def ofText (text : String) : LogFilter × List String :=
  let parts := (text.splitOn ",").filter (· ≠ "")
  let rules := parts.filterMap fun part => (LogRule.ofText part).toOption
  let lines := parts.filterMap fun part =>
    match LogRule.ofText part with
    | .ok _ => none
    | .error fault => some s!"ignoring `{part}`: {fault.message}"
  (if rules.isEmpty then standard else rules, lines)

def decisive (filter : LogFilter) (notice : Notice) : Option LogRule :=
  (filter.filter (·.isAbout notice)).foldl
    (fun best rule => if best.all rule.isAsSpecific then some rule else best) none

def shows (filter : LogFilter) (notice : Notice) : Bool :=
  (filter.decisive notice).any fun rule => notice.severity.rank ≤ rule.limit

theorem isAbout_plain (limit : Nat) (notice : Notice) :
    LogRule.isAbout ⟨"", [], false, limit⟩ notice = true := by
  simp [LogRule.isAbout]

/-- Without rules that say otherwise, all but debugging detail shows. -/
theorem shows_standard (notice : Notice) :
    standard.shows notice = decide (notice.severity ≠ .debug) := by
  have rules : standard.filter (·.isAbout notice) = standard := by
    simp [standard, isAbout_plain]
  rw [shows, decisive, rules]
  cases h : notice.severity <;> simp [standard, Severity.rank]

end LogFilter

end GameCatalog
