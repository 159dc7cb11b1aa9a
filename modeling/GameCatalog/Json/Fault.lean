import GameCatalog.Json.Text
import GameCatalog.Text.Quoted

/-!
# Why a text is refused

A text can end too soon, be malformed, or be well formed so far but of another shape than the
reader needs. A mismatch of shape says what was found and what was expected.
-/

namespace GameCatalog.Json

/-- What stands at the start of a value: a scalar as a whole, of a container only its bracket. -/
inductive Lead (ν σ : Type) where
  | null
  | bool (b : Bool)
  | num (n : ν)
  | str (s : σ)
  | array
  | object

inductive Shape where
  | record (name : String)
  | sequence
  | map
  | word32
deriving DecidableEq

inductive Mismatch where
  | missing (field : String)
  | repeated (field : String)
  | kind (found : Lead Number String) (expected : Shape)
  | range (found : Int) (expected : Shape)
  | length (found : Nat) (expected : Shape) (elements : Nat)

inductive Fault where
  | truncated
  | malformed
  | mismatch (cause : Mismatch)

namespace Lead

def describe : Lead Number String → String
  | .null => "null"
  | .bool b => s!"boolean `{b}`"
  | .num (.int n _) => s!"integer `{n}`"
  | .num (.float x) => s!"floating point `{String.ofList x.dataText}`"
  | .str s => s!"string {Text.quoted s}"
  | .array => "sequence"
  | .object => "map"

end Lead

def Shape.describe : Shape → String
  | .record name => s!"struct {name}"
  | .sequence => "a sequence"
  | .map => "a map"
  | .word32 => "u32"

def Mismatch.message : Mismatch → String
  | .missing field => s!"missing field `{field}`"
  | .repeated field => s!"duplicate field `{field}`"
  | .kind found expected => s!"invalid type: {found.describe}, expected {expected.describe}"
  | .range found expected => s!"invalid value: integer `{found}`, expected {expected.describe}"
  | .length found expected elements =>
      s!"invalid length {found}, expected {expected.describe} with {elements} elements"

end GameCatalog.Json
