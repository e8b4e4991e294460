import Whitespace.Instruction
import Whitespace.Word

/-!
# Encoding instructions

The tokens that stand for an instruction: the code of its family, the code of its command, and its
operand. This is what decoding takes apart. A number is written without leading zeros.
-/

namespace Whitespace

def TokenKind.ofBit (bit : Bool) : TokenKind :=
  if bit then .tab else .space

/-- The bits of a number, most significant first; none for zero. -/
def numberBits (n : Nat) : List Bool :=
  if n = 0 then [] else (Nat.toDigits 2 n).map (· = '1')

def nameBits (name : String) : List Bool :=
  name.toList.map (· = '1')

namespace Operand

/-- The tokens of an operand: the sign of a number, the bits, and a line feed. -/
def encode : Operand → List TokenKind
  | number value =>
    .ofBit (value < 0) :: (numberBits value.natAbs).map .ofBit ++ [.lineFeed]
  | label name _ => (nameBits name).map .ofBit ++ [.lineFeed]

/-- Whether an operand can be encoded: a number is a word, and a label is a name of bits that is not
resolved. -/
def IsEncodable : Operand → Prop
  | number value => Word.InRange value
  | label name target => (∀ c ∈ name.toList, c = '0' ∨ c = '1') ∧ target = none

end Operand

namespace Instruction

def encode (i : Instruction) : List TokenKind :=
  i.family.code ++ i.command.code ++ (i.operand.map Operand.encode).getD []

def IsEncodable (i : Instruction) : Prop :=
  i.IsConsistent ∧ ∀ operand ∈ i.operand, operand.IsEncodable

end Instruction

/-- The text of a program in an encoding. -/
def assemble (encoding : Encoding) (instructions : List Instruction) : String :=
  String.ofList ((instructions.flatMap Instruction.encode).map encoding.char)

end Whitespace
