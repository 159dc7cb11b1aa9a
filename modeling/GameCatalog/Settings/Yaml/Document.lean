import GameCatalog.Settings.Yaml.Node

/-!
# YAML texts

A text is a series of documents, each with a value. Directives and a mark may come before a document
and have to come before one that follows another without a mark between them. A text of settings
holds one document at the most.
-/

namespace GameCatalog.Yaml

namespace Reading

def dropEnds (r : Reading) : Reading :=
  r.goOn (r.tokens.dropWhile fun token => token = .documentEnd)

/-- Reads directives. A text gives its version once, and only the last handle that is declared
counts. `fuel` bounds their number. -/
def directives? : Nat → Bool → Reading → Option Reading
  | 0, _, r => some r
  | fuel + 1, versioned, r =>
      match r.tokens with
      | .versionDirective :: rest =>
          if versioned then none else directives? fuel true { r with tokens := rest, handles := [] }
      | .tagDirective handle target :: rest =>
          directives? fuel versioned { r with tokens := rest, handles := [(handle, target)] }
      | _ => some r

def isAtEnd (r : Reading) : Bool :=
  match r.tokens with
  | [] | .versionDirective :: _ | .tagDirective _ _ :: _ | .documentStart :: _
  | .documentEnd :: _ => true
  | _ => false

end Reading

def documentValue (fuel : Nat) : Node Setting := fun r =>
  if r.isAtEnd then some (.absent, r) else node fuel true false r

def document (fuel : Nat) (bare : Bool) : Node Setting := fun r =>
  if bare ∧ !r.isAtEnd then node fuel true false r
  else do
    let r ← r.directives? fuel false
    match r.tokens with
    | .documentStart :: rest => documentValue fuel (r.goOn rest)
    | _ => none

def documents : Nat → Nat → Bool → Reading → Option (List Setting)
  | 0, _, _, _ => none
  | steps + 1, fuel, bare, r => do
      let r := r.dropEnds
      if r.tokens.isEmpty then some []
      else
        let (value, r) ← document fuel bare { r with anchors := [] }
        let (ended, rest) := match r.tokens with
          | .documentEnd :: rest => (true, rest)
          | tokens => (false, tokens)
        match ended, rest with
        | false, .versionDirective :: _ | false, .tagDirective _ _ :: _ => none
        | ended, rest =>
            let others ← documents steps fuel ended { r with tokens := rest, handles := [] }
            some (value :: others)

/-- The setting that a text stands for; none if it is malformed. A text without a document has no
settings. -/
def setting? (text : String) : Option Setting := do
  let tokens ← tokens? text
  let values ← documents (tokens.length + 1) (4 * tokens.length + 4) true ⟨tokens, [], [], [], 1⟩
  match values with
  | [] => some (.table [])
  | [value] => some value
  | _ => none

end GameCatalog.Yaml
