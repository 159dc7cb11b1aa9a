import GameCatalog.Catalog.Basic
import GameCatalog.Json.Reader

/-!
# Reading catalogs

A catalog is an object with exactly one `version` and one `games`; its other members are kept as
they are. The shape is checked while the text is read: a member of the wrong kind is refused where
it starts, a repeated name where it is repeated, and a missing one at the closing brace.
-/

namespace GameCatalog

open Json

def wrongKind (found : Lead Number String) (expected : Shape) : Except Fault α :=
  .error (.mismatch (.kind found expected))

/-! ## Version stamps -/

namespace Version

def shape : Shape := .record "Version"

def readPart : Reader UInt32 := fun text => do
  let (lead, rest) ← lead text
  match lead with
  | .num (.int n _) =>
      if 0 ≤ n ∧ n < 0x100000000 then .ok (UInt32.ofNat n.toNat, rest)
      else .error (.mismatch (.range n .word32))
  | lead => wrongKind lead .word32

structure Draft where
  year : Option UInt32 := none
  major : Option UInt32 := none
  minor : Option UInt32 := none

def readNamed (name : String) (held : Option UInt32) : Reader UInt32 := fun text =>
  if held.isSome then .error (.mismatch (.repeated name))
  else do
    let (_, text) ← symbol ':' text
    readPart text

/-- The next member of a stamp; unknown ones are skipped. -/
def readMember (draft : Draft) : Reader Draft := fun text => do
  let (name, text) ← memberName string text
  if name = "year" then do
    let (part, text) ← readNamed name draft.year text
    .ok ({ draft with year := some part }, text)
  else if name = "major" then do
    let (part, text) ← readNamed name draft.major text
    .ok ({ draft with major := some part }, text)
  else if name = "minor" then do
    let (part, text) ← readNamed name draft.minor text
    .ok ({ draft with minor := some part }, text)
  else do
    let (_, text) ← symbol ':' text
    let (_, text) ← skip text
    .ok (draft, text)

def ofDraft (draft : Draft) : Except Fault Version :=
  match draft.year, draft.major, draft.minor with
  | some year, some major, some minor => .ok ⟨year, major, minor⟩
  | none, _, _ => .error (.mismatch (.missing "year"))
  | _, none, _ => .error (.mismatch (.missing "major"))
  | _, _, none => .error (.mismatch (.missing "minor"))

def readObject : Reader Version := fun text => do
  let (draft, rest) ← series '\x7d' readMember {} text
  let version ← ofDraft draft
  .ok (version, rest)

def readItem (count : Nat) : Reader UInt32 := fun text =>
  match dropBlanks text with
  | [] => .error .truncated
  | c :: rest =>
      if c = ']' then .error (.mismatch (.length count shape 3))
      else if count = 0 then readPart (c :: rest)
      else if c = ',' then readPart rest
      else .error .malformed

def readArray : Reader Version := fun text => do
  let (year, text) ← readItem 0 text
  let (major, text) ← readItem 1 text
  let (minor, text) ← readItem 2 text
  let (_, rest) ← symbol ']' text
  .ok (⟨year, major, minor⟩, rest)

def read : Reader Version := fun text => do
  let (lead, rest) ← lead text
  match lead with
  | .object => readObject rest
  | .array => readArray rest
  | lead => wrongKind lead shape

end Version

/-! ## Records and catalogs -/

def Record.read (depth : Nat) : Reader Record := fun text => do
  let (lead, rest) ← lead text
  match lead with
  | .object => do
      let (fields, rest) ← object (value depth) rest
      .ok (⟨fields⟩, rest)
  | lead => wrongKind lead .map

def Record.ofText (text : String) : Except Fault Record := do
  let (record, rest) ← Record.read (nestingLimit - 1) text.toList
  finish rest
  .ok record

namespace Catalog

def shape : Shape := .record "Document"

def readGames (depth : Nat) : Reader (List Record) := fun text => do
  let (lead, rest) ← lead text
  match lead with
  | .array => array (Record.read depth) rest
  | lead => wrongKind lead .sequence

structure Draft where
  version : Option Version := none
  games : Option (List Record) := none
  extra : Members := []

/-- The next member of a catalog. The catalog itself is a container, and around the fields of a
record stand two more. -/
def readMember (draft : Draft) : Reader Draft := fun text => do
  let (name, text) ← memberName string text
  if name = "version" then
    if draft.version.isSome then .error (.mismatch (.repeated name))
    else do
      let (_, text) ← symbol ':' text
      let (version, text) ← Version.read text
      .ok ({ draft with version := some version }, text)
  else if name = "games" then
    if draft.games.isSome then .error (.mismatch (.repeated name))
    else do
      let (_, text) ← symbol ':' text
      let (games, text) ← readGames (nestingLimit - 3) text
      .ok ({ draft with games := some games }, text)
  else do
    let (_, text) ← symbol ':' text
    let (value, text) ← value (nestingLimit - 1) text
    .ok ({ draft with extra := draft.extra.set name value }, text)

def ofDraft (draft : Draft) : Except Fault Catalog :=
  match draft.version, draft.games with
  | some version, some games => .ok ⟨version, games, draft.extra⟩
  | none, _ => .error (.mismatch (.missing "version"))
  | _, none => .error (.mismatch (.missing "games"))

def read : Reader Catalog := fun text => do
  let (lead, rest) ← lead text
  match lead with
  | .object => do
      let (draft, rest) ← series '\x7d' readMember {} rest
      let catalog ← ofDraft draft
      .ok (catalog, rest)
  | lead => wrongKind lead shape

def ofText (text : String) : Except Fault Catalog := do
  let (catalog, rest) ← read text.toList
  finish rest
  .ok catalog

end Catalog

end GameCatalog
