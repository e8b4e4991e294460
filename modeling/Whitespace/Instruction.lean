import Whitespace.Command
import Whitespace.Text.Number
import Whitespace.Text.Quoted

/-!
# Instructions

An instruction is a command with its family, its operand and the place in the source where it
starts. Decoded instructions have the family and the operand kind that belong to their command;
instructions made by hand need not.
-/

namespace Whitespace

inductive Operand where
  | number (value : Int)
  /-- A label, with the position of the mark it leads to once that is known. -/
  | label (name : String) (target : Option Int)
deriving DecidableEq, Repr

structure Location where
  file : String
  position : Position
deriving DecidableEq, Repr

namespace Location

def text (l : Location) : String :=
  l.file ++ ":" ++ Decimal.ofInt l.position.line ++ ":" ++ Decimal.ofInt l.position.column

end Location

structure Instruction where
  family : Family
  command : Command
  operand : Option Operand
  location : Option Location
deriving DecidableEq, Repr

namespace Operand

def kind : Operand → OperandKind
  | number _ => .number
  | label _ _ => .label

/-- An operand as shown in reports. An unresolved label leads to `?`. -/
def text : Operand → String
  | number value => Decimal.ofInt value
  | label name target =>
    "'" ++ name ++ "' -> " ++ (target.map Decimal.ofInt).getD "?"

def details : Operand → String
  | number value => "NumberOperand(value=" ++ Decimal.ofInt value ++ ")"
  | label name target =>
    "LabelOperand(name=" ++ Text.quoted name ++ ", target=" ++
      (target.map Decimal.ofInt).getD "None" ++ ")"

end Operand

namespace Instruction

def number? (i : Instruction) : Option Int :=
  match i.operand with
  | some (.number value) => some value
  | _ => none

def labelName? (i : Instruction) : Option String :=
  match i.operand with
  | some (.label name _) => some name
  | _ => none

/-- An instruction as shown in reports: its command, with the operand in parentheses. -/
def text (i : Instruction) : String :=
  match i.operand with
  | none => i.command.name
  | some operand => i.command.name ++ "(" ++ operand.text ++ ")"

/-- An instruction with the names of its parts, for reports on inconsistent ones. Where it stands
is left out. -/
def details (i : Instruction) : String :=
  "Instruction(family=<Family." ++ i.family.name.toUpper ++ ": '" ++ i.family.name ++
    "'>, command=<Command." ++ i.command.name.toUpper ++ ": '" ++ i.command.name ++
    "'>, operand=" ++ (i.operand.map Operand.details).getD "None" ++ ")"

def unlocated (i : Instruction) : Instruction :=
  { i with location := none }

/-- Whether two instructions are the same apart from where they stand. -/
def agrees (i j : Instruction) : Bool :=
  i.unlocated = j.unlocated

/-- Whether the family and the operand of an instruction are those that its command asks for. -/
def IsConsistent (i : Instruction) : Prop :=
  i.family = i.command.family ∧ i.operand.map Operand.kind = i.command.operandKind?

instance (i : Instruction) : Decidable i.IsConsistent :=
  inferInstanceAs (Decidable (_ ∧ _))

end Instruction

end Whitespace
