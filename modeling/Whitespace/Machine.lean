import Whitespace.Console
import Whitespace.Heap
import Whitespace.Program

/-!
# The machine

The state of a running program: two stacks, a heap, the pointer to the next instruction, and what is
remembered for reports. Every step advances the pointer by one, so a jump leads to the instruction
after the mark and a return to the one after the call.
-/

namespace Whitespace

/-- One executed step: its number, and the instruction with its position. -/
structure LogEntry where
  step : Nat
  pointer : Int
  instruction : Instruction
deriving DecidableEq, Repr

structure Machine where
  /-- The operand stack, top first. -/
  stack : List Int
  /-- The positions of the calls not yet returned from, innermost first. -/
  calls : List Int
  heap : Heap
  /-- The position of the next instruction. -/
  pointer : Int
  /-- Whether the program has ended by an exit. -/
  done : Bool
  /-- The number of steps executed. -/
  executed : Nat
  /-- The instruction executed last. -/
  last : Option Instruction
  /-- The latest steps, newest first. -/
  log : List LogEntry
  /-- Whether the output of the program is dropped. -/
  silent : Bool
  console : Console

/-- What the pointer of a machine leads to. -/
inductive Next where
  /-- The program has ended, or the pointer is past its end. -/
  | halted
  | instruction (instruction : Instruction)
  /-- The pointer is before the start of the program. -/
  | outside
deriving DecidableEq, Repr

namespace Machine

/-- The number of steps that are remembered for reports. -/
def logLimit : Nat := 32

/-- A machine that has executed nothing. -/
def start (heapSize : Nat) (silent : Bool) (console : Console) : Machine where
  stack := []
  calls := []
  heap := .blank heapSize
  pointer := 0
  done := false
  executed := 0
  last := none
  log := []
  silent := silent
  console := console

/-- The machine without what it has executed. Its console, and whether it is silent, stay as they
are. -/
def reset (m : Machine) : Machine :=
  { m with
    stack := []
    calls := []
    heap := m.heap.clear
    pointer := 0
    done := false
    executed := 0
    last := none
    log := [] }

theorem reset_eq_start (m : Machine) : m.reset = start m.heap.size m.silent m.console :=
  rfl

def next (p : Program) (m : Machine) : Next :=
  if m.done ∨ p.size ≤ m.pointer then .halted
  else
    match p.fetch? m.pointer with
    | some i => .instruction i
    | none => .outside

/-- The remembered steps, oldest first. -/
def history (m : Machine) : List LogEntry :=
  m.log.reverse

/-- Remembers the step that is about to be executed. -/
def record (m : Machine) (i : Instruction) : Machine :=
  { m with
    executed := m.executed + 1
    last := some i
    log := (⟨m.executed, m.pointer, i⟩ :: m.log).take logLimit }

def push (m : Machine) (value : Int) : Machine :=
  { m with stack := value :: m.stack }

/-- Shows a text, unless the output is dropped. -/
def output (m : Machine) (text : String) : Machine :=
  if m.silent then m else { m with console := m.console.emit text }

end Machine

end Whitespace
