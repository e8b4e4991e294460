import Whitespace.Extension.Interface
import Whitespace.Extension.Setting
import Whitespace.Path
import Whitespace.Sha256
import Whitespace.Text.Alphanumeric

/-!
# Extensions

An extension is a module that registers observers. It may declare the version of the interface it was
made for and the name under which its observers are registered. What it does to register them is up
to it: it may go on when a request of its was refused, and may raise what it likes.
-/

namespace Whitespace

/-- What an extension does to register its observers, step by step. -/
inductive Registration (Notes : Type) where
  | done
  | raises (failure : Failure)
  /-- It makes a request, and goes on by what that raises. -/
  | asks (request : Request Notes) (next : Option Failure → Registration Notes)

/-- A module that was loaded. -/
structure Extension (Notes : Type) where
  version : Option Setting
  name : Option Setting
  /-- What it does when it is called to register; `none` if it defines nothing to be called. -/
  registration : Option (Registration Notes)

/-- What comes of loading a file as a module. -/
inductive Loaded (Notes : Type) where
  /-- Files of such a name are no modules. -/
  | noModule
  /-- The file cannot be read or compiled, or raises something when it is executed. -/
  | raised (failure : Failure)
  | extension (x : Extension Notes)

/-- Registers what an extension asks for, up to the end of its registration or to what that
raises. -/
def Registration.carryOut {Notes : Type} (owner : String) :
    Registration Notes → Interface Notes → Except Failure (Registry Notes)
  | .done, s => .ok s.registry
  | .raises failure, _ => .error failure
  | .asks request next, s =>
    let (s, raised) := s.ask owner request
    (next raised).carryOut owner s

namespace Extension

/-- The version of the interface between extensions and their host. -/
def hostVersion : Nat := 1

/-- The name of the module that an extension file is loaded as: its file name, with all but letters
and digits replaced, and the start of the digest of its absolute path. -/
def moduleName (directory path : String) : String :=
  let safe := (Path.baseName path).toList.map fun c => if Text.isAlphanumeric c then c else '_'
  let digest := Sha256.hexDigest (Path.absolute directory path).toUTF8.toList
  "spacey_ext_" ++ String.ofList safe ++ "_" ++ String.ofList (digest.take 12)

end Extension

end Whitespace
