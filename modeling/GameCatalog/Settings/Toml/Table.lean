import GameCatalog.Settings.Merge
import GameCatalog.Settings.Moment

/-!
# Tables of TOML

What the lines of a text have defined so far is a tree of tables. A table comes about under a
heading of its own, on the way to the table of another heading, or on the way of a dotted key, and
this decides what may still be said about it:

* a heading makes a new table, or takes over one that has only been on the way of headings;
* a dotted key leads through no table that has a heading, and ends in a table that is made by dotted
  keys;
* a heading in double brackets starts one more table of an array, and paths through such an array
  lead to the last of its tables;
* nothing leads through a value, and no key gets a second one.

`Table.setting?` is the setting that a table stands for. A table whose first key is the mark of
moments stands for a moment.
-/

namespace GameCatalog.Toml

/-- How a table came about: under its own heading, on the way to another one, or by a dotted key. -/
inductive Origin where
  | heading
  | way
  | dotted
deriving DecidableEq

/-- What a key stands for. A table on one line is closed. Of an array of tables, only the last one
can still get members. -/
inductive Node where
  | leaf (value : Scalar)
  | moment (moment : Moment)
  | array (items : List Node)
  | closed (members : List (String × Node))
  | table (origin : Origin) (members : List (String × Node))
  | tables (earlier : List (List (String × Node))) (last : List (String × Node))

abbrev Table := List (String × Node)

namespace Table

def replace (name : String) (node : Node) (table : Table) : Table :=
  table.map fun (other, held) => if other = name then (other, node) else (other, held)

/-- Edits the table at the end of a path, which starts in a table of the given origin. Tables that
are missing on the way are made with `made` as their origin. -/
def edit (made : Origin) (change : Origin → Table → Option Table) :
    List String → Origin → Table → Option Table
  | [], origin, table => change origin table
  | name :: path, _, table =>
      match table.lookup name with
      | none => do
          let inner ← edit made change path made []
          some (table ++ [(name, .table made inner)])
      | some (.leaf _) | some (.moment _) | some (.array _) | some (.closed _) => none
      | some (.tables earlier last) => do
          let last ← edit made change path .heading last
          some (table.replace name (.tables earlier last))
      | some (.table origin inner) =>
          if made = .dotted ∧ origin = .heading then none
          else do
            let inner ← edit made change path origin inner
            some (table.replace name (.table origin inner))

def editAt (path : List String) (change : Table → Option Table) (root : Table) : Option Table :=
  root.edit .way (fun _ => change) path .heading

def add? (name : String) (node : Node) (table : Table) : Option Table :=
  match table.lookup name with
  | some _ => none
  | none => some (table ++ [(name, node)])

def assign? (value : Node) (path : List String) (table : Table) : Option Table :=
  match path.getLast? with
  | none => none
  | some name =>
      table.edit .dotted (fun origin inner =>
        if path.length = 1 ∨ origin = .dotted then inner.add? name value else none)
        path.dropLast .heading

def enter? (path : List String) (root : Table) : Option Table :=
  match path.getLast? with
  | none => none
  | some name =>
      root.editAt path.dropLast fun table =>
        match table.lookup name with
        | none => some (table ++ [(name, .table .heading [])])
        | some (.table .way members) =>
            some (table.filter (·.1 ≠ name) ++ [(name, .table .heading members)])
        | some _ => none

def enterNext? (path : List String) (root : Table) : Option Table :=
  match path.getLast? with
  | none => none
  | some name =>
      root.editAt path.dropLast fun table =>
        match table.lookup name with
        | none => some (table ++ [(name, .tables [] [])])
        | some (.tables earlier last) =>
            some (table.replace name (.tables (earlier ++ [last]) []))
        | some _ => none

end Table

/-! ## Settings -/

def momentMark : String := "$__toml_private_datetime"

def markedMoment? : Node → Option Setting
  | .leaf (.text text) => (Moment.ofText? text).map fun moment => .scalar (.text moment.text)
  | _ => none

mutual

def Node.setting? : Node → Option Setting
  | .leaf value => some (.scalar value)
  | .moment moment => some (.scalar (.text moment.text))
  | .array items => (itemSettings? items).map .list
  | .closed members => Table.setting? members
  | .table _ members => Table.setting? members
  | .tables earlier last => do
      let earlier ← tableSettings? earlier
      let last ← Table.setting? last
      some (.list (earlier ++ [last]))

def Table.setting? : List (String × Node) → Option Setting
  | [] => some (.table [])
  | (name, node) :: rest =>
      if name = momentMark then markedMoment? node
      else do
        let first ← node.setting?
        let others ← memberSettings? rest
        some (.table ((name, first) :: others))

def memberSettings? : List (String × Node) → Option (List (String × Setting))
  | [] => some []
  | (name, node) :: rest => do
      let first ← node.setting?
      let others ← memberSettings? rest
      some ((name, first) :: others)

def itemSettings? : List Node → Option (List Setting)
  | [] => some []
  | node :: rest => do
      let first ← node.setting?
      let others ← itemSettings? rest
      some (first :: others)

def tableSettings? : List (List (String × Node)) → Option (List Setting)
  | [] => some []
  | members :: rest => do
      let first ← Table.setting? members
      let others ← tableSettings? rest
      some (first :: others)

end

end GameCatalog.Toml
