import GameCatalog.Text.Utf8

/-!
# Paths

A path is made of bytes, which need not be text: parts between slashes. Empty parts and `.` stand for
no step, save a `.` that starts a relative path. The last component names the file; the parent is
what stands before it, without the slashes and dots at its end.
-/

namespace GameCatalog

/-- A part of a path, such as the name of an entry in a directory. -/
abbrev Name := List UInt8

structure Path where
  bytes : List UInt8
deriving DecidableEq

namespace Path

def ofText (text : String) : Path := ⟨Text.utf8 text⟩

instance : Coe String Path := ⟨ofText⟩

def display (path : Path) : String := Text.display path.bytes

instance : ToString Path := ⟨display⟩

@[simp] theorem display_ofText (text : String) : (ofText text).display = text :=
  Text.display_utf8 text

@[simp] theorem toString_ofText (text : String) : toString (ofText text) = text :=
  Text.display_utf8 text

def slash : UInt8 := 0x2f

def dot : Name := [0x2e]

def dots : Name := [0x2e, 0x2e]

def splitSlash : List UInt8 → List Name
  | [] => [[]]
  | byte :: rest =>
      if byte = slash then [] :: splitSlash rest
      else match splitSlash rest with
        | [] => [[byte]]
        | part :: parts => (byte :: part) :: parts

def joinSlash : List Name → List UInt8
  | [] => []
  | [part] => part
  | part :: parts => part ++ slash :: joinSlash parts

def parts (path : Path) : List Name := splitSlash path.bytes

def IsAbsolute (path : Path) : Prop := [slash] <+: path.bytes

instance (path : Path) : Decidable path.IsAbsolute := inferInstanceAs (Decidable (_ <+: _))

/-- The parts of a path in reverse, without those at the end that stand for no step. The first part
stays: a dot there is a component, and an empty one starts an absolute path. -/
def trimmedParts (reversed : List Name) : List Name :=
  match reversed with
  | [] => []
  | [first] => [first]
  | part :: rest => if part = [] ∨ part = dot then trimmedParts rest else part :: rest

def componentParts (path : Path) : List Name := trimmedParts path.parts.reverse

def fileName? (path : Path) : Option Name :=
  match componentParts path with
  | part :: _ => if part = [] ∨ part = dot ∨ part = dots then none else some part
  | [] => none

/-- What stands before the last component; the root and the empty path have none. -/
def parent? (path : Path) : Option Path :=
  match componentParts path with
  | [] => none
  | [part] => if part = [] then none else some ⟨[]⟩
  | _ :: rest =>
      match trimmedParts rest with
      | [[]] => some ⟨[slash]⟩
      | parts => some ⟨joinSlash parts.reverse⟩

/-- The directory that holds a path: `.` where the path names none. -/
def directory (path : Path) : Path :=
  match parent? path with
  | some parent => if parent.bytes = [] then ⟨dot⟩ else parent
  | none => ⟨dot⟩

def join (directory : Path) (name : Name) : Path :=
  if directory.bytes.getLast? = some slash then ⟨directory.bytes ++ name⟩
  else ⟨directory.bytes ++ slash :: name⟩

/-- What follows the last dot of the file name; a dot that starts the name starts no extension. -/
def extension? (path : Path) : Option Name :=
  match fileName? path with
  | none => none
  | some name =>
      match name.reverse.dropWhile (· ≠ 0x2e) with
      | [] | [_] => none
      | _ => some (name.reverse.takeWhile (· ≠ 0x2e)).reverse

/-- The path up to its file name, with an extension after it; a path without a file name has none.
An extension that the name has stays. -/
def addExtension? (path : Path) (extension : String) : Option Path :=
  (fileName? path).map fun _ =>
    ⟨joinSlash (componentParts path).reverse ++ dot ++ Text.utf8 extension⟩

example : addExtension? "./c.d//" "json" = some "./c.d.json"
    ∧ addExtension? "c/.." "json" = none := by decide +kernel

example : parent? "a//b/./c.json" = some "a//b" ∧ parent? "./c" = some "." ∧ parent? "c/" = some ""
    ∧ parent? "/c" = some "/" ∧ parent? "" = none := by decide +kernel

example : extension? "a/b.tar.gz" = some (Text.utf8 "gz") ∧ extension? ".rc" = none
    ∧ extension? "b." = some [] := by decide +kernel

end Path

end GameCatalog
