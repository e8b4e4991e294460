import Whitespace.Extension

/-!
# Folders

The files that a command can see: those of one folder and the little that every system has, and what
the system answers when a file is not there or is no file. What a file is as a module depends on much
that lies outside, and comes with the folder. Loading a module changes nothing in the folder.
-/

namespace Whitespace

inductive FileError where
  | notFound
  | accessDenied
  /-- A component that is not the last is no folder. -/
  | notDirectory
  /-- The path leads to a folder. -/
  | isDirectory
  | nameTooLong
deriving DecidableEq, Repr

namespace FileError

def number : FileError → Nat
  | notFound => 2
  | accessDenied => 13
  | notDirectory => 20
  | isDirectory => 21
  | nameTooLong => 36

def text : FileError → String
  | notFound => "No such file or directory"
  | accessDenied => "Permission denied"
  | notDirectory => "Not a directory"
  | isDirectory => "Is a directory"
  | nameTooLong => "File name too long"

def message (e : FileError) (path : String) : String :=
  "[Errno " ++ Decimal.ofNat e.number ++ "] " ++ e.text ++ ": " ++ Text.quoted path

end FileError

inductive Entry where
  | file (content : List UInt8)
  /-- An empty folder. -/
  | folder

structure Folder (Notes : Type) where
  /-- The absolute path of the folder. -/
  path : String
  /-- What stands in the folder, by paths relative to it. -/
  entries : List (String × Entry)
  /-- What comes of loading an absolute path as a module, when so many were loaded before it. -/
  load : String → Nat → Loaded Notes := fun _ _ => .noModule

namespace Folder

variable {Notes : Type}

/-- The number of bytes that the name of a file may have. -/
def nameLimit : Nat := 255

/-- The number of bytes that a path must stay below. -/
def pathLimit : Nat := 4096

def systemFolders : List String := [
  "/bin", "/boot", "/dev", "/dev/shm", "/etc", "/home", "/lib", "/media", "/mnt", "/opt", "/proc",
  "/root", "/run", "/sbin", "/srv", "/sys", "/tmp", "/usr", "/usr/bin", "/usr/lib", "/usr/local",
  "/usr/local/bin", "/usr/local/lib", "/usr/sbin", "/usr/share", "/var", "/var/cache", "/var/lib",
  "/var/log", "/var/tmp"]

def nullDevice : String := "/dev/null"

/-- The components of the path of the folder. -/
def home (f : Folder Notes) : List (List Char) :=
  (Path.components f.path.toList).filter (· ≠ [])

/-- What stands in the folder under a relative path. A later entry replaces an earlier one. -/
def entry? (f : Folder Notes) (path : String) : Option Entry :=
  f.entries.reverse.lookup path

/-- What is known to stand at a place, which is given by its components from the root on. Outside of
the folder, only the folders around it and what every system has are known. -/
def at? (f : Folder Notes) (place : List (List Char)) : Option Entry :=
  let path := String.ofList (['/'].intercalate ([] :: place))
  if place.isPrefixOf f.home then some .folder
  else if f.home.isPrefixOf place then
    f.entry? (String.ofList (['/'].intercalate (place.drop f.home.length)))
  else if systemFolders.contains path then some .folder
  else if path = nullDevice then some (.file [])
  else none

/-- What a path leads to whose components are followed from a folder. The components of that folder
are given innermost first. -/
def findFrom (f : Folder Notes) (here : List (List Char)) :
    List (List Char) → Except FileError Entry
  | [] => .ok .folder
  | name :: rest =>
    if name = [] ∨ name = ['.'] then f.findFrom here rest
    else if name = ['.', '.'] then f.findFrom (here.drop 1) rest
    else if nameLimit < (String.ofList name).utf8ByteSize then .error .nameTooLong
    else
      match f.at? (name :: here).reverse with
      | none => .error .notFound
      | some .folder => f.findFrom (name :: here) rest
      | some entry => if rest = [] then .ok entry else .error .notDirectory

def find (f : Folder Notes) (path : String) : Except FileError Entry :=
  if path = "" then .error .notFound
  else if pathLimit ≤ path.utf8ByteSize then .error .nameTooLong
  else
    f.findFrom (if Path.isAbsolute path then [] else f.home.reverse)
      (Path.components path.toList)

def read (f : Folder Notes) (path : String) : Except FileError (List UInt8) :=
  match f.find path with
  | .error e => .error e
  | .ok .folder => .error .isDirectory
  | .ok (.file content) => .ok content

end Folder

end Whitespace
