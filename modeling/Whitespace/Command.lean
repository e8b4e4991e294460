import Whitespace.Token

/-!
# Commands

The five families of commands, the commands of each family, and the codes that select them. An
instruction starts with the code of its family, then the code of its command within the family.
-/

namespace Whitespace

inductive Family where
  | stack
  | arithmetic
  | heap
  | flow
  | io
deriving DecidableEq, Repr

inductive Command where
  | push
  | duplicate
  | copyNth
  | swap
  | discard
  | slide
  | add
  | subtract
  | multiply
  | divide
  | modulo
  | store
  | retrieve
  | mark
  | call
  | jump
  | jumpIfZero
  | jumpIfNegative
  | ret
  | exit
  | outputCharacter
  | outputNumber
  | readCharacter
  | readNumber
deriving DecidableEq, Repr

inductive OperandKind where
  | number
  | label
deriving DecidableEq, Repr

/-- A sequence of tokens that selects a family, or a command of a family. -/
abbrev Code := List TokenKind

namespace Code

def letters (code : Code) : String :=
  String.ofList (code.map TokenKind.letter)

end Code

namespace Family

def all : List Family := [stack, arithmetic, heap, flow, io]

theorem mem_all (f : Family) : f ∈ all := by
  cases f <;> decide

def name : Family → String
  | stack => "stack"
  | arithmetic => "arithmetic"
  | heap => "heap"
  | flow => "flow"
  | io => "io"

/-- The tokens that an instruction of a family starts with. -/
def code : Family → Code
  | stack => [.space]
  | arithmetic => [.tab, .space]
  | heap => [.tab, .tab]
  | flow => [.lineFeed]
  | io => [.tab, .lineFeed]

end Family

namespace Command

def all : List Command :=
  [push, duplicate, copyNth, swap, discard, slide, add, subtract, multiply, divide, modulo, store,
    retrieve, mark, call, jump, jumpIfZero, jumpIfNegative, ret, exit, outputCharacter,
    outputNumber, readCharacter, readNumber]

theorem mem_all (c : Command) : c ∈ all := by
  cases c <;> decide

def name : Command → String
  | push => "push"
  | duplicate => "duplicate"
  | copyNth => "copy_nth"
  | swap => "swap"
  | discard => "discard"
  | slide => "slide_n"
  | add => "add"
  | subtract => "subtract"
  | multiply => "multiply"
  | divide => "divide"
  | modulo => "modulo"
  | store => "store"
  | retrieve => "retrieve"
  | mark => "mark"
  | call => "call"
  | jump => "jump"
  | jumpIfZero => "jump_if_zero"
  | jumpIfNegative => "jump_if_negative"
  | ret => "return"
  | exit => "exit"
  | outputCharacter => "output_character"
  | outputNumber => "output_number"
  | readCharacter => "read_character"
  | readNumber => "read_number"

def family : Command → Family
  | push | duplicate | copyNth | swap | discard | slide => .stack
  | add | subtract | multiply | divide | modulo => .arithmetic
  | store | retrieve => .heap
  | mark | call | jump | jumpIfZero | jumpIfNegative | ret | exit => .flow
  | outputCharacter | outputNumber | readCharacter | readNumber => .io

/-- The tokens that select a command within its family. -/
def code : Command → Code
  | push => [.space]
  | duplicate => [.lineFeed, .space]
  | copyNth => [.tab, .space]
  | swap => [.lineFeed, .tab]
  | discard => [.lineFeed, .lineFeed]
  | slide => [.tab, .lineFeed]
  | add => [.space, .space]
  | subtract => [.space, .tab]
  | multiply => [.space, .lineFeed]
  | divide => [.tab, .space]
  | modulo => [.tab, .tab]
  | store => [.space]
  | retrieve => [.tab]
  | mark => [.space, .space]
  | call => [.space, .tab]
  | jump => [.space, .lineFeed]
  | jumpIfZero => [.tab, .space]
  | jumpIfNegative => [.tab, .tab]
  | ret => [.tab, .lineFeed]
  | exit => [.lineFeed, .lineFeed]
  | outputCharacter => [.space, .space]
  | outputNumber => [.space, .tab]
  | readCharacter => [.tab, .space]
  | readNumber => [.tab, .tab]

/-- The kind of operand that follows a command; `none` if it takes none. -/
def operandKind? : Command → Option OperandKind
  | push | copyNth | slide => some .number
  | mark | call | jump | jumpIfZero | jumpIfNegative => some .label
  | _ => none

end Command

def Family.codes : List (Code × Family) :=
  Family.all.map fun f => (f.code, f)

def Family.commandCodes (f : Family) : List (Code × Command) :=
  (Command.all.filter fun c => c.family = f).map fun c => (c.code, c)

end Whitespace
