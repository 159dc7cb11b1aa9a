import GameCatalog.Settings.Yaml.Token

/-!
# The layout of YAML texts

Lists and tables in blocks of lines start and end with the columns of the lines, and the key of a
table is told from other values only by the colon after it. So scanning keeps the columns of the
blocks that are open and, for every bracket that is open, the place where a key may have started.
-/

namespace GameCatalog.Yaml

/-- A place where a key may have started, and the number of tokens before it. A `required` one
stands where nothing but a key may. -/
structure KeyPlace where
  possible : Bool
  required : Bool
  tokens : Nat
  line : Nat
  column : Nat
  index : Nat

def KeyPlace.none : KeyPlace := ⟨false, false, 0, 0, 0, 0⟩

/-- What was before an indentation came: the column then. Not every indentation makes a block. -/
structure Indentation where
  before : Int
  isBlock : Bool

/-- What scanning has come to. `tokens` holds the last token first, and `indent` is the column of
the lines, `-1` before the first block. `adjacent` is the place where a value may follow its colon
without white space. `inFlowTable` and `pairs` tell where a list between brackets has a table of one
member without braces: for each list that is open, whether such a table goes on. -/
structure Layout where
  cursor : Cursor
  tokens : List Token
  count : Nat
  keyPlaces : List KeyPlace
  keyAllowed : Bool
  indent : Int
  indentations : List Indentation
  flowDepth : Nat
  adjacent : Nat
  inFlowTable : Bool
  pairs : List Bool

namespace Layout

def start (text : List Char) : Layout where
  cursor := .start text
  tokens := []
  count := 0
  keyPlaces := [.none]
  keyAllowed := true
  indent := -1
  indentations := []
  flowDepth := 0
  adjacent := 0
  inFlowTable := false
  pairs := []

def isFlow (s : Layout) : Bool := 0 < s.flowDepth

/-! ## Tokens -/

def push (token : Token) (s : Layout) : Layout :=
  { s with tokens := token :: s.tokens, count := s.count + 1 }

/-- Puts a token in front of those that have come since there were `before` of them. -/
def insert (before : Nat) (token : Token) (s : Layout) : Layout :=
  let later := s.count - before
  { s with tokens := s.tokens.take later ++ token :: s.tokens.drop later, count := s.count + 1 }

def read? (parser : Text.Parser Token) (s : Layout) : Option Layout :=
  (s.cursor.read? parser).map fun (token, cursor) => { s with cursor }.push token

def skip (count : Nat) (s : Layout) : Layout := { s with cursor := s.cursor.skip count }

def skipInLine? (s : Layout) : Option Layout :=
  (s.cursor.skipInLine? true).map fun (_, cursor) => { s with cursor }

/-! ## Keys -/

def allowKey (keyAllowed : Bool) (s : Layout) : Layout := { s with keyAllowed }

def noteKey (s : Layout) : Layout :=
  if !s.keyAllowed then s
  else
    let required := !s.isFlow && s.indent == s.cursor.column &&
      s.indentations.head?.any Indentation.isBlock
    let place : KeyPlace :=
      ⟨true, required, s.count, s.cursor.line, s.cursor.column, s.cursor.index⟩
    { s with keyPlaces := place :: s.keyPlaces.tail }

def keyPlace (s : Layout) : KeyPlace := s.keyPlaces.headD .none

def forgetKey? (s : Layout) : Option Layout :=
  let place := s.keyPlace
  if place.possible && place.required then none
  else some { s with keyPlaces := { place with possible := false } :: s.keyPlaces.tail }

def dropOldKeys? (s : Layout) : Option Layout :=
  let old (place : KeyPlace) : Bool := place.possible && !s.isFlow &&
    (place.line < s.cursor.line || place.index + 1024 < s.cursor.index)
  if s.keyPlaces.any (fun place => old place && place.required) then none
  else
    some { s with keyPlaces := s.keyPlaces.map fun place =>
      { place with possible := place.possible && !old place } }

/-! ## Indentations -/

def closeFrom (column : Int) : List Indentation → Layout → Layout
  | [], s => s
  | indentation :: rest, s =>
      if column < s.indent then
        let s := { s with indent := indentation.before, indentations := rest }
        closeFrom column rest (if indentation.isBlock then s.push .blockEnd else s)
      else s

def close (column : Int) (s : Layout) : Layout :=
  if s.isFlow then s else closeFrom column s.indentations s

def dropLoose (s : Layout) : Layout :=
  match s.indentations with
  | indentation :: rest =>
      if indentation.isBlock then s
      else { s with indent := indentation.before, indentations := rest }
  | [] => s

/-- Starts a block at a column, if that lies to the right of the lines around. Its token goes in
front of those that have come since there were `before` of them. -/
def openBlock (column : Nat) (before : Nat) (token : Token) (s : Layout) : Layout :=
  if s.isFlow then s
  else
    let s := if s.indent ≤ column then s.dropLoose else s
    if s.indent < column then
      { s with indentations := ⟨s.indent, true⟩ :: s.indentations, indent := column }.insert
        before token
    else s

def indentLoosely (s : Layout) : Layout :=
  if !s.isFlow ∧ s.indentations.head?.any Indentation.isBlock then
    { s with indentations := ⟨s.indent, false⟩ :: s.indentations, indent := s.indent + 1 }
  else s

/-! ## Brackets -/

def flowLimit : Nat := 255

def openFlow? (s : Layout) : Option Layout :=
  if s.flowDepth < flowLimit then
    some { s with flowDepth := s.flowDepth + 1, keyPlaces := .none :: s.keyPlaces }
  else none

def closeFlow (s : Layout) : Layout :=
  if s.isFlow then { s with flowDepth := s.flowDepth - 1, keyPlaces := s.keyPlaces.tail } else s

def endPair (s : Layout) : Layout :=
  match s.pairs with
  | true :: rest => { s with pairs := false :: rest, inFlowTable := false }.push .flowTableEnd
  | _ => s

end Layout

end GameCatalog.Yaml
