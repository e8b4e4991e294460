/-!
# Paths

Paths are texts whose components are separated by slashes. They are made absolute and brought to a
normal form by their text alone.
-/

namespace Whitespace.Path

/-- The message about an option value that should be a path but was removed. -/
def removedMessage : String :=
  "expected str, bytes or os.PathLike object, not list"

def components (path : List Char) : List (List Char) :=
  path.splitOn '/'

/-- Adds a component to normal components, given innermost first: the current directory adds
nothing, and the parent directory takes one away. -/
def addComponent (isRooted : Bool) (normal : List (List Char)) (component : List Char) :
    List (List Char) :=
  if component = [] ∨ component = ['.'] then normal
  else if component = ['.', '.'] then
    match normal with
    | [] => if isRooted then [] else [component]
    | last :: rest => if last = ['.', '.'] then component :: normal else rest
  else component :: normal

/-- The slashes that a path keeps at its start: none, one, or exactly two. -/
def rootOf (path : List Char) : List Char :=
  match path with
  | '/' :: '/' :: '/' :: _ => ['/']
  | '/' :: '/' :: _ => ['/', '/']
  | '/' :: _ => ['/']
  | _ => []

/-- A path without empty components, current directories, and parents that can be taken away. -/
def normalize (path : String) : String :=
  let root := rootOf path.toList
  let normal := (components path.toList).foldl (addComponent (root ≠ [])) []
  let path := root ++ ['/'].intercalate normal.reverse
  if path = [] then "." else String.ofList path

def isAbsolute (path : String) : Bool :=
  path.toList.head? = some '/'

/-- The absolute normal form of a path that starts at a directory. -/
def absolute (directory path : String) : String :=
  normalize (if isAbsolute path then path else directory ++ "/" ++ path)

/-- The part of a path after its last slash. -/
def baseName (path : String) : String :=
  String.ofList ((components path.toList).getLastD [])

/-- A file name without its extension: the part from the last dot on, unless nothing but dots comes
before it. -/
def stem (name : String) : String :=
  let cs := name.toList
  let dots := cs.takeWhile (· = '.')
  let rest := cs.dropWhile (· = '.')
  if rest.contains '.' then
    String.ofList (dots ++ ((rest.reverse.dropWhile (· ≠ '.')).drop 1).reverse)
  else name

end Whitespace.Path
