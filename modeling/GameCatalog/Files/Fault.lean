import GameCatalog.Files.Path

/-!
# Faults of files

Why a file cannot be read or written, with the operating system's words and number where it has
them. Some paths are faulty whatever files there are: those with a NUL in them, and those that are
too long.
-/

namespace GameCatalog

inductive FileFault where
  | notFound
  | notUtf8
  | nulInName
  | system (description : String) (code : Nat)
deriving DecidableEq

namespace FileFault

def permissionDenied : FileFault := .system "Permission denied" 13

def notDirectory : FileFault := .system "Not a directory" 20

def isDirectory : FileFault := .system "Is a directory" 21

def nameTooLong : FileFault := .system "File name too long" 36

def tooManyLinks : FileFault := .system "Too many levels of symbolic links" 40

def text : FileFault → String
  | .notFound => "No such file or directory (os error 2)"
  | .notUtf8 => "stream did not contain valid UTF-8"
  | .nulInName => "file name contained an unexpected NUL byte"
  | .system description code => s!"{description} (os error {code})"

def nameLimit : Nat := 255

def pathLimit : Nat := 4095

def ofPath? (path : Path) : Option FileFault :=
  if path.bytes.contains 0 then some .nulInName
  else if path.bytes = [] then some .notFound
  else if pathLimit < path.bytes.length then some .nameTooLong
  else none

def ofName? (name : Name) : Option FileFault :=
  if nameLimit < name.length then some .nameTooLong else none

end FileFault

end GameCatalog
