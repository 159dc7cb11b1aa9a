import GameCatalog.Files.Fault

/-!
# File trees

A tree of directories with a root, one of which is the working directory. A name in a directory
stands for a directory, for a file or, as a link, for a path. Files are known by numbers, so that
several names may stand for one file. A path is followed part by part, from the root or from the
working directory, and a link on the way is replaced by the path that it stands for.
-/

namespace GameCatalog

/-- The contents of a file: UTF-8 text, or bytes that are none. -/
inductive Contents where
  | text (text : String)
  | bytes (bytes : List UInt8)
deriving DecidableEq

structure File where
  contents : Contents
  readOnly : Bool
deriving DecidableEq

def File.ofText (text : String) : File := ⟨.text text, false⟩

inductive Entry where
  | directory
  | file (number : Nat)
  | link (target : Path)
deriving DecidableEq

abbrev Place := List Name

/-- The entries of all directories, in the order in which they are listed, the files by their
numbers, and the working directory. -/
structure FileTree where
  entries : List (Place × Entry)
  files : List File
  here : Place
deriving DecidableEq

/-- Where a path leads: to a file, to a directory, or to a place in a directory that is free. -/
inductive Arrival where
  | file (number : Nat)
  | directory (place : Place)
  | free (place : Place)
deriving DecidableEq

namespace FileTree

/-! ## Following paths -/

section Walk

variable (entries : List (Place × Entry)) (writing : Bool)

/-- Follows parts from a directory up to a link; `leap` goes on from there, given the directory of
the link, the path that it stands for and the parts after it. A name before a slash at the end is that
of a directory to whoever wants to write. -/
def walkBy (leap : Place → Path → List Name → Except FileFault Arrival) :
    Place → List Name → Except FileFault Arrival
  | place, [] => .ok (.directory place)
  | place, part :: rest =>
      if part = [] ∨ part = Path.dot then walkBy leap place rest
      else if part = Path.dots then walkBy leap place.dropLast rest
      else if writing ∧ rest ≠ [] ∧ rest.all (· = []) then .error .isDirectory
      else match FileFault.ofName? part, entries.lookup (place ++ [part]) with
        | some fault, _ => .error fault
        | none, some .directory => walkBy leap (place ++ [part]) rest
        | none, some (.file number) =>
            if rest = [] then .ok (.file number) else .error .notDirectory
        | none, some (.link target) => leap place target rest
        | none, none => if rest = [] then .ok (.free (place ++ [part])) else .error .notFound

def startAt (place : Place) (path : Path) : Place := if path.IsAbsolute then [] else place

def leap : Nat → Place → Path → List Name → Except FileFault Arrival
  | 0, _, _, _ => .error .tooManyLinks
  | links + 1, place, target, rest =>
      walkBy entries writing (leap links) (startAt place target) (target.parts ++ rest)

def walk (links : Nat) : Place → List Name → Except FileFault Arrival :=
  walkBy entries writing (leap entries writing links)

end Walk

def linkLimit : Nat := 40

def resolve (tree : FileTree) (writing : Bool) (path : Path) : Except FileFault Arrival :=
  match FileFault.ofPath? path with
  | some fault => .error fault
  | none => walk tree.entries writing linkLimit (startAt tree.here path) path.parts

/-! ## Reading -/

def contents (tree : FileTree) (number : Nat) : Except FileFault String :=
  match tree.files[number]? with
  | none => .error .notFound
  | some ⟨.text text, _⟩ => .ok text
  | some ⟨.bytes _, _⟩ => .error .notUtf8

def read (tree : FileTree) (path : Path) : Except FileFault String := do
  match ← tree.resolve false path with
  | .file number => tree.contents number
  | .directory _ => .error .isDirectory
  | .free _ => .error .notFound

def nameIn? (directory place : Place) : Option Name :=
  if place.dropLast = directory then place.getLast? else none

def list (tree : FileTree) (path : Path) : Except FileFault (List Name) := do
  match ← tree.resolve false path with
  | .directory place => .ok ((tree.entries.map Prod.fst).filterMap (nameIn? place))
  | .file _ => .error .notDirectory
  | .free _ => .error .notFound

/-! ## Writing -/

def setText (tree : FileTree) (number : Nat) (text : String) : FileTree :=
  { tree with files := tree.files.set number (.ofText text) }

def create (tree : FileTree) (place : Place) (file : File) : FileTree :=
  { tree with
    entries := tree.entries ++ [(place, .file tree.files.length)]
    files := tree.files ++ [file] }

def write (tree : FileTree) (path : Path) (text : String) : Except FileFault FileTree := do
  match ← tree.resolve true path with
  | .directory _ => .error .isDirectory
  | .free place => .ok (tree.create place (.ofText text))
  | .file number =>
      match tree.files[number]? with
      | none => .error .notFound
      | some file =>
          if file.readOnly then .error .permissionDenied else .ok (tree.setText number text)

/-! ## Making trees -/

def empty (here : Place) : FileTree := ⟨[], [], here⟩

def makeDirectories (tree : FileTree) (place : Place) : FileTree :=
  let missing := (List.range place.length).filterMap fun n =>
    let parent := place.take (n + 1)
    if (tree.entries.lookup parent).isSome then none else some (parent, Entry.directory)
  { tree with entries := tree.entries ++ missing }

end FileTree

end GameCatalog
