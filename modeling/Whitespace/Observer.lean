import Whitespace.Machine
import Whitespace.Text.Number

/-!
# Observers

Observers watch a run. A hook is called on an event of the run's life, a step rule before every
instruction whose step number its interval divides. An observer sees the machine and keeps notes of
its own; it cannot change the machine, but what it raises ends the run. The tracer is a step rule
that writes down what each step starts from.

Hooks are kept in the order in which they are called: by descending priority, and in the order of
their registration among equal priorities.
-/

namespace Whitespace

/-- What observers write down: the texts of the tracer, and notes of their own kind. -/
structure Journal (Notes : Type) where
  trace : Array String
  notes : Notes

/-- What a step rule is shown of the machine before an instruction. -/
structure Snapshot where
  step : Int
  pointer : Int
  instruction : Instruction
  /-- The operand stack, top first. -/
  stack : List Int
  /-- The positions of the calls not yet returned from, innermost first. -/
  calls : List Int
  /-- The cells that do not hold zero, if a rule asks for them. -/
  heap : Option (List (Int × Int))
deriving DecidableEq, Repr

def Snapshot.text (s : Snapshot) : String :=
  let heap := s.heap.map fun cells => "  heap: " ++ Text.cellList cells
  String.intercalate "\n" (
    ["[step " ++ Decimal.ofInt s.step ++ "] ip=" ++ Decimal.ofInt s.pointer ++ " " ++
        s.instruction.text,
      "  stack: " ++ Text.numberList s.stack.reverse,
      "  call stack: " ++ Text.numberList s.calls.reverse] ++ heap.toList)

structure Event where
  name : String
  /-- The machine that runs. -/
  machine : Option Machine
  /-- The error that stopped the machine. -/
  error : Option RuntimeError

/-- An observer of events. -/
structure Hook (Notes : Type) where
  /-- The name of the events it is called on. -/
  event : String
  priority : Int
  name : String
  /-- The extension that registered it. -/
  owner : String
  react : Event → Notes → Notes × Option Raised

inductive Action (Notes : Type) where
  /-- Writes the snapshot into the trace. -/
  | trace
  | react (react : Machine → Snapshot → Notes → Notes × Option Raised)

/-- An observer of steps. -/
structure StepRule (Notes : Type) where
  /-- The interval of the steps it is called on. -/
  every : Int
  name : String
  /-- The extension that registered it. -/
  owner : String
  /-- Whether it asks for the cells of the heap. -/
  wantsHeap : Bool
  action : Action Notes

/-- The observers of a run. -/
structure Registry (Notes : Type) where
  /-- The hooks on all events, in the order in which they are called. -/
  hooks : List (Hook Notes)
  /-- The step rules, in the order in which they are called. -/
  rules : List (StepRule Notes)

variable {Notes : Type}

/-- Puts a hook behind all hooks of its priority or a higher one. -/
def Hook.insert (hook : Hook Notes) : List (Hook Notes) → List (Hook Notes)
  | [] => [hook]
  | other :: hooks =>
    if hook.priority ≤ other.priority then other :: hook.insert hooks else hook :: other :: hooks

/-- Calls hooks one after the other, up to the first that raises. -/
def Hook.callAll (event : Event) : List (Hook Notes) → Notes → Notes × Option Raised
  | [], notes => (notes, none)
  | hook :: hooks, notes =>
    match hook.react event notes with
    | (notes, some raised) => (notes, some raised)
    | (notes, none) => callAll event hooks notes

namespace StepRule

/-- Whether a rule is called on a step. -/
def applies (rule : StepRule Notes) (step : Int) : Bool :=
  step % rule.every = 0

def call (rule : StepRule Notes) (m : Machine) (snapshot : Snapshot) (journal : Journal Notes) :
    Journal Notes × Option Raised :=
  match rule.action with
  | .trace => ({ journal with trace := journal.trace.push snapshot.text }, none)
  | .react react =>
    let (notes, raised) := react m snapshot journal.notes
    ({ journal with notes := notes }, raised)

/-- Calls the rules that apply to a step one after the other, up to the first that raises. -/
def callAll (m : Machine) (snapshot : Snapshot) :
    List (StepRule Notes) → Journal Notes → Journal Notes × Option Raised
  | [], journal => (journal, none)
  | rule :: rules, journal =>
    if rule.applies snapshot.step then
      match rule.call m snapshot journal with
      | (journal, some raised) => (journal, some raised)
      | (journal, none) => callAll m snapshot rules journal
    else callAll m snapshot rules journal

def tracer (heap : Bool) : StepRule Notes where
  every := 1
  name := "trace"
  owner := "builtin"
  wantsHeap := heap
  action := .trace

end StepRule

namespace Registry

def empty : Registry Notes :=
  ⟨[], []⟩

/-- The observers of a run without extensions: the tracer, if steps or heaps are to be traced. -/
def builtin (debug debugHeap : Bool) : Registry Notes :=
  ⟨[], if debug || debugHeap then [.tracer debugHeap] else []⟩

def addHook (r : Registry Notes) (hook : Hook Notes) : Registry Notes :=
  { r with hooks := hook.insert r.hooks }

/-- Registers a step rule; `none` if its interval is no positive number. -/
def addRule? (r : Registry Notes) (rule : StepRule Notes) : Option (Registry Notes) :=
  if 1 ≤ rule.every then some { r with rules := r.rules ++ [rule] } else none

/-- The hooks on an event, in the order in which they are called. -/
def hooksOn (r : Registry Notes) (event : String) : List (Hook Notes) :=
  r.hooks.filter fun hook => hook.event = event

def events (r : Registry Notes) : List String :=
  (r.hooks.map Hook.event).eraseDups

/-- Whether a rule asks for the cells of the heap. Then all rules are shown them. -/
def wantsHeap (r : Registry Notes) : Bool :=
  r.rules.any StepRule.wantsHeap

def emit (r : Registry Notes) (event : Event) (journal : Journal Notes) :
    Journal Notes × Option Raised :=
  let (notes, raised) := Hook.callAll event (r.hooksOn event.name) journal.notes
  ({ journal with notes := notes }, raised)

/-- What the rules are shown before an instruction. -/
def snapshot (r : Registry Notes) (m : Machine) (i : Instruction) : Snapshot where
  step := m.executed
  pointer := m.pointer
  instruction := i
  stack := m.stack
  calls := m.calls
  heap := if r.wantsHeap then some (m.heap.nonzero.map fun (a, v) => (a, v)) else none

def beforeStep (r : Registry Notes) (m : Machine) (snapshot : Snapshot)
    (journal : Journal Notes) : Journal Notes × Option Raised :=
  StepRule.callAll m snapshot r.rules journal

end Registry

end Whitespace
