import Whitespace.Folder

/-!
# Loading extensions

Extensions are loaded one after the other. Each adds its observers to those of the extensions before
it, and the first that cannot be loaded ends the loading.
-/

namespace Whitespace

/-- Why an extension was not loaded. -/
inductive LoadError where
  /-- The value of an option that names an extension was removed. -/
  | pathRemoved
  | notFound (path : String)
  | notLoadable (path : String)
  /-- The extension was made for another version of the interface. -/
  | otherVersion (path : String) (version : Setting)
  /-- The extension defines nothing that can be called to register its observers. -/
  | noRegistration (path : String)
  /-- The module was not executed to its end, or the registration failed. -/
  | raised (failure : Failure)

namespace LoadError

/-- What is raised for an error. -/
def failure : LoadError → Failure
  | pathRemoved => ⟨.other, ⟨"TypeError", Path.removedMessage⟩⟩
  | notFound path => .refusal ("Extension not found: " ++ path)
  | notLoadable path => .refusal ("Failed to load extension module: " ++ path)
  | otherVersion path version =>
    .refusal ("Extension " ++ path ++ " requires API " ++ version.shown ++ ", host supports " ++
      Decimal.ofNat Extension.hostVersion)
  | noRegistration path =>
    .refusal ("Extension " ++ path ++ " must define callable spacey_register(ext)")
  | raised failure => failure

end LoadError

namespace Extension

variable {Notes : Type}

/-- The name under which the observers of an extension are registered: the one that it declares, or
else its file name without the extension of the name. -/
def owner (x : Extension Notes) (path : String) : String :=
  match x.name with
  | some name => name.shown
  | none => Path.stem (Path.baseName path)

def addTo (x : Extension Notes) (path : String) (r : Registry Notes) :
    Except LoadError (Registry Notes) :=
  match x.version.filter fun version => !version.equals hostVersion with
  | some version => .error (.otherVersion path version)
  | none =>
    match x.registration with
    | none => .error (.noRegistration path)
    | some registration => (registration.carryOut (x.owner path) ⟨r, []⟩).mapError .raised

end Extension

namespace Folder

variable {Notes : Type}

/-- The absolute forms of paths, each with the number of paths before it. -/
def places (f : Folder Notes) (paths : List String) : List (String × Nat) :=
  (paths.map (Path.absolute f.path)).zipIdx

def loadExtension (f : Folder Notes) (r : Registry Notes) (place : String × Nat) :
    Except LoadError (Registry Notes) :=
  match f.find place.1 with
  | .error _ => .error (.notFound place.1)
  | .ok _ =>
    match f.load place.1 place.2 with
    | .noModule => .error (.notLoadable place.1)
    | .raised failure => .error (.raised failure)
    | .extension x => x.addTo place.1 r

/-- The observers of a run: the tracer if it is asked for, then those of the extensions of given
paths, in order. Nothing is loaded if one of the paths was removed. -/
def loadObservers (f : Folder Notes) (paths : List (Option String)) (debug debugHeap : Bool) :
    Except LoadError (Registry Notes) :=
  match paths.mapM id with
  | none => .error .pathRemoved
  | some paths =>
    (f.places paths).foldlM f.loadExtension (.builtin debug debugHeap)

end Folder

end Whitespace
