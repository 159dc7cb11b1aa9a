import GameCatalog.Settings.Merge
import GameCatalog.Settings.Yaml.Scalar
import GameCatalog.Settings.Yaml.Scan

/-!
# From YAML tokens to settings

A value is an alias, a scalar, a list or a table, and anchors and tags may come before it. An alias
stands for the value that its anchor has named, and for none while that value goes on. The keys of a
table are texts and integers, all of them different.
-/

namespace GameCatalog.Yaml

/-- What is left of the tokens, with what the handles of tags stand for, the numbers of the anchors
in the document, and the values that anchors have named, by number. -/
structure Reading where
  tokens : List Token
  handles : List (String × String)
  anchors : List (String × Nat)
  named : List (Nat × Setting)
  nextAnchor : Nat

namespace Reading

def goOn (tokens : List Token) (r : Reading) : Reading := { r with tokens }

def addAnchor (name : String) (r : Reading) : Nat × Reading :=
  (r.nextAnchor,
    { r with anchors := (name, r.nextAnchor) :: r.anchors, nextAnchor := r.nextAnchor + 1 })

def resolve? (written : Tag) (r : Reading) : Option Tag :=
  match r.handles.lookup written.handle with
  | some target => some { written with handle := target }
  | none =>
      if written.handle = "!!" then some { written with handle := commonHandle }
      else if isNamedHandle written.handle.toList then none
      else some written

def properties? (r : Reading) : Option (Option Nat × Option Tag × Reading) :=
  match r.tokens with
  | .anchor name :: rest =>
      let (anchor, r) := (r.goOn rest).addAnchor name
      match rest with
      | .tag written :: rest => do
          let tag ← r.resolve? written
          some (some anchor, some tag, r.goOn rest)
      | _ => some (some anchor, none, r)
  | .tag written :: rest => do
      let tag ← r.resolve? written
      match rest with
      | .anchor name :: rest =>
          let (anchor, r) := (r.goOn rest).addAnchor name
          some (some anchor, some tag, r)
      | _ => some (none, some tag, r.goOn rest)
  | _ => some (none, none, r)

def name (anchor : Option Nat) (value : Setting) (r : Reading) : Reading :=
  match anchor with
  | some anchor => { r with named := (anchor, value) :: r.named }
  | none => r

end Reading

/-! ## Tables -/

abbrev Key := Bool × String

def Key.ofSetting? : Setting → Option Key
  | .scalar (.text text) => some (true, text)
  | .scalar (.int n) => some (false, toString n)
  | _ => none

abbrev Entries := List (Key × Setting)

def Entries.add? (key value : Setting) (entries : Entries) : Option Entries :=
  match Key.ofSetting? key with
  | some key => if (entries.lookup key).isSome then none else some ((key, value) :: entries)
  | none => none

/-- The table of the members. Of a text and an integer that are spelled the same, the later one
counts. -/
def Entries.setting (entries : Entries) : Setting :=
  .table (entries.foldr (fun (key, value) members => Setting.Members.set key.2 value members) [])

/-! ## Values -/

def endsEntry : List Token → Bool
  | .key :: _ | .value :: _ | .blockEnd :: _ => true
  | _ => false

def endsFlowEntry (last : Token) : List Token → Bool
  | token :: _ => token = .comma || token = last
  | [] => false

abbrev Node (α : Type) := Reading → Option (α × Reading)

mutual

/-- A value. `block` tells whether it may be a block, and `indentless` whether it may be a list at
the column of the lines around. `fuel` bounds the steps. -/
def node : Nat → Bool → Bool → Node Setting
  | 0, _, _, _ => none
  | fuel + 1, block, indentless, r =>
      match r.tokens with
      | .reference name :: rest =>
          (r.anchors.lookup name).map fun anchor =>
            ((r.named.lookup anchor).getD .absent, r.goOn rest)
      | _ =>
          match r.properties? with
          | none => none
          | some (anchor, tag, r) =>
              let leftOut := anchor.isSome || tag.isSome
              match contents fuel block indentless tag leftOut r with
              | some (value, r) => some (value, r.name anchor value)
              | none => none

def contents : Nat → Bool → Bool → Option Tag → Bool → Node Setting
  | 0, _, _, _, _, _ => none
  | fuel + 1, block, indentless, tag, leftOut, r =>
      match r.tokens, block, indentless with
      | .item :: _, _, true => looseItems fuel [] r
      | .scalar plain text :: rest, _, _ =>
          (scalarSetting? tag plain text).map fun value => (value, r.goOn rest)
      | .flowList :: rest, _, _ => flowItems fuel true [] (r.goOn rest)
      | .flowTable :: rest, _, _ => flowMembers fuel true [] (r.goOn rest)
      | .blockList :: rest, true, _ => blockItems fuel [] (r.goOn rest)
      | .blockTable :: rest, true, _ => blockMembers fuel [] (r.goOn rest)
      | _, _, _ =>
          if leftOut then (scalarSetting? tag true "").map fun value => (value, r) else none

def blockItems : Nat → List Setting → Node Setting
  | 0, _, _ => none
  | fuel + 1, held, r =>
      match r.tokens with
      | .blockEnd :: rest => some (.list held.reverse, r.goOn rest)
      | .item :: rest =>
          match rest with
          | .item :: _ | .blockEnd :: _ => blockItems fuel (.absent :: held) (r.goOn rest)
          | _ =>
              match node fuel true false (r.goOn rest) with
              | some (value, r) => blockItems fuel (value :: held) r
              | none => none
      | _ => none

def looseItems : Nat → List Setting → Node Setting
  | 0, _, _ => none
  | fuel + 1, held, r =>
      match r.tokens with
      | .item :: rest =>
          if endsEntry rest || rest.head? = some .item then
            looseItems fuel (.absent :: held) (r.goOn rest)
          else match node fuel true false (r.goOn rest) with
            | some (value, r) => looseItems fuel (value :: held) r
            | none => none
      | _ => some (.list held.reverse, r)

def blockEntry : Nat → Node Setting
  | 0, _ => none
  | fuel + 1, r => if endsEntry r.tokens then some (.absent, r) else node fuel true true r

def blockMembers : Nat → Entries → Node Setting
  | 0, _, _ => none
  | fuel + 1, held, r =>
      match r.tokens with
      | .blockEnd :: rest => some (held.setting, r.goOn rest)
      | .value :: _ => blockValue fuel .absent held r
      | .key :: rest =>
          match blockEntry fuel (r.goOn rest) with
          | some (key, r) => blockValue fuel key held r
          | none => none
      | _ => none

def blockValue : Nat → Setting → Entries → Node Setting
  | 0, _, _, _ => none
  | fuel + 1, key, held, r =>
      let value := match r.tokens with
        | .value :: rest => blockEntry fuel (r.goOn rest)
        | _ => some (.absent, r)
      match value with
      | some (value, r) =>
          match held.add? key value with
          | some held => blockMembers fuel held r
          | none => none
      | none => none

def flowItems : Nat → Bool → List Setting → Node Setting
  | 0, _, _, _ => none
  | fuel + 1, first, held, r =>
      let tokens := match r.tokens, first with
        | .flowListEnd :: _, _ => some r.tokens
        | .comma :: rest, false => some rest
        | tokens, true => some tokens
        | _, false => none
      match tokens with
      | none => none
      | some (.flowListEnd :: rest) => some (.list held.reverse, r.goOn rest)
      | some (.key :: rest) =>
          match flowPair fuel (r.goOn rest) with
          | some (value, r) => flowItems fuel false (value :: held) r
          | none => none
      | some tokens =>
          match node fuel false false (r.goOn tokens) with
          | some (value, r) => flowItems fuel false (value :: held) r
          | none => none

def flowPair : Nat → Node Setting
  | 0, _ => none
  | fuel + 1, r =>
      let key : Option (Setting × Reading) := match r.tokens with
        | .value :: rest | .comma :: rest | .flowListEnd :: rest => some (.absent, r.goOn rest)
        | _ => node fuel false false r
      match key with
      | none => none
      | some (key, r) =>
          match flowValue fuel .flowListEnd r with
          | some (value, r) =>
              (Entries.add? key value []).map fun entries => (Entries.setting entries, r)
          | none => none

def flowValue : Nat → Token → Node Setting
  | 0, _, _ => none
  | fuel + 1, last, r =>
      match r.tokens with
      | .value :: rest =>
          if endsFlowEntry last rest then some (.absent, r.goOn rest)
          else node fuel false false (r.goOn rest)
      | _ => some (.absent, r)

def flowMembers : Nat → Bool → Entries → Node Setting
  | 0, _, _, _ => none
  | fuel + 1, first, held, r =>
      let tokens := match r.tokens, first with
        | .flowTableEnd :: _, _ => some r.tokens
        | .comma :: rest, false => some rest
        | tokens, true => some tokens
        | _, false => none
      match tokens with
      | none => none
      | some (.flowTableEnd :: rest) => some (held.setting, r.goOn rest)
      | some tokens =>
          match flowMember fuel (r.goOn tokens) with
          | some ((key, value), r) =>
              match held.add? key value with
              | some held => flowMembers fuel false held r
              | none => none
          | none => none

def flowMember : Nat → Node (Setting × Setting)
  | 0, _ => none
  | fuel + 1, r =>
      let key := match r.tokens with
        | .key :: rest =>
            if rest.head? = some .value || endsFlowEntry .flowTableEnd rest then
              some (.absent, true, r.goOn rest)
            else (node fuel false false (r.goOn rest)).map fun (key, r) => (key, true, r)
        | .value :: _ => some (.absent, true, r)
        | _ => (node fuel false false r).map fun (key, r) => (key, false, r)
      match key with
      | none => none
      | some (key, false, r) => some ((key, .absent), r)
      | some (key, true, r) =>
          (flowValue fuel .flowTableEnd r).map fun (value, r) => ((key, value), r)

end

end GameCatalog.Yaml
