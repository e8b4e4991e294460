import Std.Data.TreeMap
import Whitespace.Instruction.Decode

/-!
# Programs

A program is a sequence of instructions in which labels know where they lead: to the last mark of
the same name, wherever it stands. A label that no mark defines stays as it was; this is no error
until a jump to it is taken.
-/

namespace Whitespace

/-- The position of the mark that defines a label name, in order of the names. -/
abbrev LabelTable := Std.TreeMap String Nat

/-- The label name that an instruction defines: the label of a mark. -/
def Instruction.definedLabel? (i : Instruction) : Option String :=
  if i.command = .mark then i.labelName? else none

/-- The labels that instructions define. A later mark of the same name wins. -/
def labelTable (instructions : List Instruction) : LabelTable :=
  instructions.zipIdx.foldl (fun table (i, index) =>
    match i.definedLabel? with
    | some name => table.insert name index
    | none => table) ∅

/-- The instruction with the target of its label, if the label is defined. -/
def Instruction.resolve (table : LabelTable) (i : Instruction) : Instruction :=
  match i.operand with
  | some (.label name _) =>
    match table[name]? with
    | some index => { i with operand := some (.label name (some index)) }
    | none => i
  | _ => i

def resolveLabels (instructions : List Instruction) : List Instruction :=
  instructions.map (Instruction.resolve (labelTable instructions))

/-- A sequence of instructions that is ready to run. -/
structure Program where
  instructions : Array Instruction
deriving DecidableEq, Repr

namespace Program

/-- The program that consists of instructions as they are. -/
def ofList (instructions : List Instruction) : Program :=
  ⟨instructions.toArray⟩

/-- The program that consists of instructions with their labels resolved. -/
def link (instructions : List Instruction) : Program :=
  ofList (resolveLabels instructions)

def size (p : Program) : Nat :=
  p.instructions.size

def at? (p : Program) (position : Int) : Option Instruction :=
  if position < 0 then none else p.instructions[position.toNat]?

/-- The instruction that a pointer leads to. A negative pointer counts from the end. -/
def fetch? (p : Program) (pointer : Int) : Option Instruction :=
  p.at? (if pointer < 0 then pointer + p.size else pointer)

def parse (file : String) (encoding : Encoding) (text : String) : Except DecodeFailure Program :=
  (decode file (Source.ofText encoding text).tokens).map link

end Program

end Whitespace
