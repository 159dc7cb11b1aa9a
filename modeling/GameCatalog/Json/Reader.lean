import GameCatalog.Json.Scan

/-!
# Reading values

Containers are read by `series`, which folds a step over the items up to the closing bracket. A
value nests at most as many containers as its reader is given; a skipped value nests without limit
and its numbers and escapes are checked only for their form.
-/

namespace GameCatalog.Json

/-! ## The start of a value -/

def leadWith (number : Reader ν) (string : Reader σ) : Reader (Lead ν σ) := fun text =>
  match dropBlanks text with
  | [] => .error .truncated
  | c :: rest =>
      if c = '"' then do
        let (s, rest) ← string rest
        .ok (.str s, rest)
      else if c = '[' then .ok (.array, rest)
      else if c = '\x7b' then .ok (.object, rest)
      else if c = 'n' then do
        let (_, rest) ← expect ['u', 'l', 'l'] rest
        .ok (.null, rest)
      else if c = 't' then do
        let (_, rest) ← expect ['r', 'u', 'e'] rest
        .ok (.bool true, rest)
      else if c = 'f' then do
        let (_, rest) ← expect ['a', 'l', 's', 'e'] rest
        .ok (.bool false, rest)
      else if c = '-' ∨ c.isDigit then do
        let (n, rest) ← number (c :: rest)
        .ok (.num n, rest)
      else .error .malformed

def lead : Reader (Lead Number String) := leadWith number string

/-! ## Containers -/

/-- Items from the first one on. Each takes a character at least, so a text as long as the one to
read is a bound on their number. -/
def items (last : Char) (step : σ → Reader σ) : List Char → σ → Reader σ
  | [], _, _ => .error .truncated
  | _ :: bound, state, text => do
      let (state, text) ← step state text
      match dropBlanks text with
      | [] => .error .truncated
      | c :: rest =>
          if c = ',' then items last step bound state rest
          else if c = last then .ok (state, rest)
          else .error .malformed

/-- The inside of a container after its opening bracket: items separated by commas, up to the
bracket `last`. -/
def series (last : Char) (step : σ → Reader σ) (start : σ) : Reader σ := fun text =>
  match dropBlanks text with
  | [] => .error .truncated
  | c :: rest => if c = last then .ok (start, rest) else items last step text start text

def memberName (string : Reader σ) : Reader σ := fun text =>
  match dropBlanks text with
  | [] => .error .truncated
  | c :: rest => if c = '"' then string rest else .error .malformed

def member (string : Reader σ) (value : Reader α) : Reader (σ × α) := fun text => do
  let (name, text) ← memberName string text
  let (_, text) ← symbol ':' text
  let (value, text) ← value text
  .ok ((name, value), text)

def array (value : Reader α) : Reader (List α) := fun text => do
  let (reversed, rest) ← series ']' (fun held text => do
    let (item, text) ← value text
    .ok (item :: held, text)) [] text
  .ok (reversed.reverse, rest)

/-- The members of an object. A repeated name keeps its place and takes the later value. -/
def object (value : Reader Value) : Reader Members :=
  series '\x7d' (fun held text => do
    let ((name, value), text) ← member string value text
    .ok (held.set name value, text)) []

/-! ## Values -/

/-- A value whose containers hold values read by `inner`; without `inner` it may be no container. -/
def valueWith (inner : Option (Reader Value)) : Reader Value := fun text => do
  let (lead, rest) ← lead text
  match lead, inner with
  | .null, _ => .ok (.null, rest)
  | .bool b, _ => .ok (.bool b, rest)
  | .num n, _ => .ok (.num n, rest)
  | .str s, _ => .ok (.str s, rest)
  | .array, some inner => do
      let (items, rest) ← array inner rest
      .ok (.arr items, rest)
  | .object, some inner => do
      let (members, rest) ← object inner rest
      .ok (.obj members, rest)
  | _, none => .error .malformed

def value : Nat → Reader Value
  | 0 => valueWith none
  | depth + 1 => valueWith (some (value depth))

/-! ## Skipped values -/

/-- An escape of which only the four digits are checked; what it stands for is not kept. -/
def looseEscape : Reader Char := fun text => do
  let (_, rest) ← fourHexDigits text
  .ok ('\ufffd', rest)

def looseString : Reader (List Char) := fun text => stringChars looseEscape text [] text

def looseLead : Reader (Lead Numeral (List Char)) := leadWith (numeral .malformed) looseString

/-- A skipped value that nests fewer containers than `bound` is long. -/
def skipWithin : List Char → Reader Unit
  | [], _ => .error .truncated
  | _ :: bound, text => do
      let (lead, rest) ← looseLead text
      match lead with
      | .array => series ']' (fun _ => skipWithin bound) () rest
      | .object => series '\x7d' (fun _ text => do
          let (_, text) ← member looseString (skipWithin bound) text
          .ok ((), text)) () rest
      | _ => .ok ((), rest)

/-- A value of any depth, read only for its form. Every container takes a character, so the text is
a bound on their nesting. -/
def skip : Reader Unit := fun text => skipWithin text text

/-! ## Whole texts -/

def finish (text : List Char) : Except Fault Unit :=
  if (dropBlanks text).isEmpty then .ok () else .error .malformed

def nestingLimit : Nat := 127

def ofText (text : String) : Except Fault Value := do
  let (value, rest) ← value nestingLimit text.toList
  finish rest
  .ok value

end GameCatalog.Json
