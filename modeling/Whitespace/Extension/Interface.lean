import Whitespace.Observer

/-!
# The interface of extensions

Extensions register functions of theirs as hooks or as step rules. They may do so at once, or ask for
a decorator, which registers each function that it is put on later. A step rule without a name of its
own goes by that of its function.
-/

namespace Whitespace

/-- The kinds of errors that are told apart while a run is prepared. -/
inductive ErrorKind where
  | system
  | decoding
  | extension
  | other
deriving DecidableEq, Repr

/-- What is raised while extensions are loaded, and of which kind it is. -/
structure Failure where
  kind : ErrorKind
  notice : Notice
deriving DecidableEq, Repr

namespace Failure

/-- An extension cannot be used, or uses its interface in a wrong way. -/
def refusal (message : String) : Failure :=
  ⟨.extension, ⟨"WSExtensionError", message⟩⟩

def badInterval : Failure :=
  .refusal "every_n_steps must be >= 1"

end Failure

/-- A function of an extension. It can be called on events as well as on steps. -/
structure Handler (Notes : Type) where
  /-- The name that it was defined by, or the error that asking for it raises. -/
  name : Except Notice String
  onEvent : Event → Notes → Notes × Option Raised := fun _ notes => (notes, none)
  onStep : Machine → Snapshot → Notes → Notes × Option Raised := fun _ _ notes => (notes, none)

/-- What a handler is to be called on. -/
inductive Occasion where
  | event (name : String) (priority : Int)
  /-- The steps that an interval divides. The name of the rule may be left empty. -/
  | steps (every : Int) (name : String) (wantsHeap : Bool)

/-- An occasion, and the extension that asked for it. -/
structure Subscription where
  occasion : Occasion
  owner : String

variable {Notes : Type}

/-- The name of a step rule: the one that is given, or else that of its handler. -/
def Handler.ruleName (handler : Handler Notes) (given : String) : Except Failure String :=
  if given = "" then handler.name.mapError (Failure.mk .other) else .ok given

def Registry.subscribe (r : Registry Notes) (s : Subscription) (handler : Handler Notes) :
    Except Failure (Registry Notes) :=
  match s.occasion with
  | .event name priority =>
    let shownName := handler.name.toOption.getD ""
    .ok (r.addHook ⟨name, priority, shownName, s.owner, handler.onEvent⟩)
  | .steps every given wantsHeap =>
    match handler.ruleName given with
    | .error failure => .error failure
    | .ok name =>
      match r.addRule? ⟨every, name, s.owner, wantsHeap, .react handler.onStep⟩ with
      | some r => .ok r
      | none => .error .badInterval

/-- What an extension asks of its interface. -/
inductive Request (Notes : Type) where
  /-- To register a handler. Without one, a decorator is given out. -/
  | subscribe (occasion : Occasion) (handler : Option (Handler Notes))
  /-- To put one of the decorators given out, which is told by its number, on a handler. -/
  | decorate (number : Nat) (handler : Handler Notes)

/-- What is registered, and the decorators that were given out. -/
structure Interface (Notes : Type) where
  registry : Registry Notes
  decorators : List Subscription

namespace Interface

/-- Registers a handler. If that fails, nothing changes. -/
def register (s : Interface Notes) (subscription : Subscription) (handler : Handler Notes) :
    Interface Notes × Option Failure :=
  match s.registry.subscribe subscription handler with
  | .ok r => ({ s with registry := r }, none)
  | .error failure => (s, some failure)

/-- The interface after a request of an extension, and what the request raises. -/
def ask (s : Interface Notes) (owner : String) : Request Notes → Interface Notes × Option Failure
  | .subscribe occasion (some handler) => s.register ⟨occasion, owner⟩ handler
  | .subscribe occasion none =>
    ({ s with decorators := s.decorators ++ [⟨occasion, owner⟩] }, none)
  | .decorate number handler =>
    match s.decorators[number]? with
    | some subscription => s.register subscription handler
    | none => (s, none)

end Interface

end Whitespace
