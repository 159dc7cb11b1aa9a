import GameCatalog.Settings.Yaml.Block
import GameCatalog.Settings.Yaml.Layout
import GameCatalog.Settings.Yaml.Plain
import GameCatalog.Settings.Yaml.Quoted

/-!
# From YAML texts to tokens

The next character tells which token comes. Before it, white space and comments are dropped, places
of keys become old, and blocks end that lie to the right.
-/

namespace GameCatalog.Yaml.Layout

open Text

/-! ## White space -/

def skipLine (s : Layout) : Layout :=
  { s with cursor := s.cursor.skipLine, keyAllowed := s.keyAllowed || !s.isFlow }

def skipSpace? : Nat → Layout → Option Layout
  | 0, s => some s
  | fuel + 1, s =>
      match s.cursor.text with
      | [] => some s
      | c :: _ =>
          if isLineEnd c then skipSpace? fuel s.skipLine
          else if c = '#' then skipSpace? fuel { s with cursor := s.cursor.skipRest }
          else if c = '\t' ∧ s.cursor.fresh ∧ !s.indentations.isEmpty ∧
              s.cursor.column < s.indent then
            match s.skipInLine? with
            | some s => if endsLine s.cursor.text then skipSpace? fuel s else none
            | none => none
          else if isBlank c then skipSpace? fuel { s with cursor := s.cursor.skipBlanks 1 }
          else some s

def skipKeySpace? : Nat → Bool → Layout → Option Layout
  | 0, spaced, s => if spaced then some s else none
  | fuel + 1, spaced, s =>
      match s.cursor.text with
      | [] => if spaced then some s else none
      | c :: _ =>
          if c = ' ' then skipKeySpace? fuel true { s with cursor := s.cursor.skipBlanks 1 }
          else if isLineEnd c then skipKeySpace? fuel true s.skipLine
          else if c = '#' then skipKeySpace? fuel spaced { s with cursor := s.cursor.skipRest }
          else if spaced ∧ c ≠ '\t' then some s else none

/-! ## Marks -/

def closeDocument? (s : Layout) : Option Layout :=
  ((s.close (-1)).forgetKey?).map (allowKey false)

def documentStart? (s : Layout) : Option Layout := do
  let s ← s.closeDocument?
  some ((s.skip 3).push .documentStart)

def documentEnd? (s : Layout) : Option Layout := do
  let s ← s.closeDocument?
  let s ← ((s.skip 3).push .documentEnd).skipInLine?
  if endsLine s.cursor.text then some s else none

def directive? (s : Layout) : Option Layout := do
  let s ← s.closeDocument?
  let s ← (s.skip 1).read? directive
  let s ← s.skipInLine?
  if endsLine s.cursor.text then some { s with cursor := s.cursor.skipLine } else none

def flowStart? (token : Token) (s : Layout) : Option Layout := do
  let s ← s.noteKey.indentLoosely.openFlow?
  let s := if token = .flowTable then { s with inFlowTable := true }
    else { s with pairs := false :: s.pairs }
  let s ← ((s.allowKey true).skip 1).skipInLine?
  some (s.push token)

/-- A closing bracket or brace. A colon may follow it without white space. -/
def flowEnd? (token : Token) (s : Layout) : Option Layout := do
  let s ← s.forgetKey?
  let s := s.closeFlow.allowKey false
  let s := if token = .flowListEnd then { s.endPair with pairs := s.pairs.tail } else s
  let s ← (s.skip 1).skipInLine?
  some ((if s.isFlow then { s with adjacent := s.cursor.index } else s).push token)

def comma? (s : Layout) : Option Layout := do
  let s ← s.forgetKey?
  let s ← ((s.allowKey true).endPair.skip 1).skipInLine?
  some (s.push .comma)

def item? (s : Layout) : Option Layout :=
  if s.isFlow ∨ !s.keyAllowed then none
  else do
    let column := s.cursor.column
    let s := (s.skip 1).openBlock column s.count .blockList
    let (blanks, cursor) ← s.cursor.skipInLine? true
    if blanks.contains '\t' ∧ cursor.startsMark "-" then none
    else
      let s := { s with cursor }
      let startsLate := cursor.text.head?.any fun c => isLineEnd c || isFlowMark c
      let s ← (if startsLate then s.indentLoosely else s).forgetKey?
      some ((s.allowKey true).push .item)

def key? (s : Layout) : Option Layout :=
  if !s.isFlow ∧ !s.keyAllowed then none
  else do
    let s := if s.isFlow then { s with inFlowTable := true }
      else s.openBlock s.cursor.column s.count .blockTable
    let s ← s.forgetKey?
    let s := (s.allowKey (!s.isFlow)).skip 1
    let s ← skipKeySpace? s.cursor.text.length false s
    some (s.push .key)

/-- A tab after a colon may not lead to a word. -/
def skipValueTab? (s : Layout) : Option Layout :=
  if s.cursor.text.head? ≠ some '\t' then some s
  else do
    let (blanks, cursor) ← s.cursor.skipInLine? true
    if !blanks.contains ' ' ∧ cursor.text.head?.any isWordChar then none
    else some { s with cursor }

/-- The colon of a value. A key that may have started before it becomes one, and in a list between
brackets a table starts without a brace. -/
def value? (s : Layout) : Option Layout := do
  let place := s.keyPlace
  let startsPair := !s.pairs.isEmpty && !s.inFlowTable
  let line := s.cursor.line
  let column := s.cursor.column
  let s := if startsPair then { s with pairs := true :: s.pairs.tail } else s
  let s ← (s.skip 1).skipValueTab?
  if place.possible then
    if startsPair ∧ place.line < line then none
    else
      let s := s.insert place.tokens .key
      let s := if startsPair then s.insert place.tokens .flowTable else s
      let s := (s.openBlock place.column place.tokens .blockTable).indentLoosely
      let s := { s with keyPlaces := { place with possible := false } :: s.keyPlaces.tail }
      some ((s.allowKey false).push .value)
  else
    let s := if startsPair then s.push .flowTable else s
    if s.isFlow then some ((s.allowKey false).push .value)
    else if !s.keyAllowed then none
    else some (((s.openBlock column s.count .blockTable).indentLoosely.allowKey true).push .value)

/-! ## Scalars and what is said about them -/

def property? (parser : Parser Token) (s : Layout) : Option Layout :=
  (s.noteKey.allowKey false).read? parser

def anchor : Parser Token := fun text =>
  (anchorName (text.drop 1)).map fun (name, rest) => (.anchor name, rest)

def reference : Parser Token := fun text =>
  (anchorName (text.drop 1)).map fun (name, rest) => (.reference name, rest)

def tagToken (flow : Bool) : Parser Token := fun text => do
  let (tag, rest) ← tag text
  if endsWord rest || (flow && rest.head?.any isFlowMark) then some (.tag tag, rest) else none

def block? (literal : Bool) (s : Layout) : Option Layout :=
  let s := (s.noteKey.allowKey true).dropLoose
  (Block.read? literal s.indent (s.cursor.skip 1)).map fun (text, cursor) =>
    { s with cursor }.push (.scalar false text)

def quoted? (single : Bool) (s : Layout) : Option Layout := do
  let s := s.noteKey.allowKey false
  let (text, cursor) ← Quoted.read? single s.isFlow s.indent s.cursor
  let s ← skipSpace? cursor.text.length { s with cursor }
  some ({ s with adjacent := s.cursor.index }.push (.scalar false text))

def plain? (s : Layout) : Option Layout :=
  let s := (s.noteKey.allowKey false).dropLoose
  (Plain.read? s.isFlow (s.indent + 1) s.cursor).map fun (text, cursor) =>
    { s with cursor, keyAllowed := cursor.fresh }.push (.scalar true text)

/-! ## The next token -/

def startsValue (s : Layout) (rest : List Char) : Bool :=
  endsWord rest || (s.isFlow && (rest.head?.any isFlowMark || s.cursor.index == s.adjacent))

def tokenAt? (c : Char) (rest : List Char) (s : Layout) : Option Layout :=
  if s.cursor.column = 0 ∧ c = '%' then s.directive?
  else if s.cursor.column = 0 ∧ s.cursor.startsMark "---" then s.documentStart?
  else if s.cursor.column = 0 ∧ s.cursor.startsMark "..." then s.documentEnd?
  else if s.cursor.column < s.indent then none
  else if c = '[' then s.flowStart? .flowList
  else if c = '\x7b' then s.flowStart? .flowTable
  else if c = ']' then s.flowEnd? .flowListEnd
  else if c = '\x7d' then s.flowEnd? .flowTableEnd
  else if c = ',' then s.comma?
  else if c = '-' ∧ endsWord rest then s.item?
  else if c = '?' ∧ endsWord rest then s.key?
  else if c = ':' ∧ s.startsValue rest then s.value?
  else if c = '*' then s.property? reference
  else if c = '&' then s.property? anchor
  else if c = '!' then s.property? (tagToken s.isFlow)
  else if c = '|' ∧ !s.isFlow then s.block? true
  else if c = '>' ∧ !s.isFlow then s.block? false
  else if c = '\'' then s.quoted? true
  else if c = '"' then s.quoted? false
  else if c = '%' ∨ c = '@' ∨ c.toNat = 0x60 then none
  else s.plain?

def finish? (s : Layout) : Option (List Token) :=
  if s.keyPlaces.any (fun place => place.possible && place.required) then none
  else some (s.close (-1)).tokens.reverse

def scan? : Nat → Layout → Option (List Token)
  | 0, _ => none
  | fuel + 1, s => do
      let s ← skipSpace? (s.cursor.text.length + 1) s
      let s ← s.dropOldKeys?
      let s := s.close s.cursor.column
      match s.cursor.text with
      | [] => s.finish?
      | c :: rest =>
          let s ← s.tokenAt? c rest
          scan? fuel s

end GameCatalog.Yaml.Layout

namespace GameCatalog.Yaml

def tokens? (text : String) : Option (List Token) :=
  let chars := text.toList.takeWhile (· ≠ '\x00')
  Layout.scan? (chars.length + 1) (.start chars)

end GameCatalog.Yaml
