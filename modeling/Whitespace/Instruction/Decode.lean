import Whitespace.Instruction
import Whitespace.Source
import Whitespace.Word

/-!
# Decoding instructions

Tokens are grouped into instructions from left to right: the code of a family, the code of a
command, and the operand that the command asks for. A code is followed token by token until it is
complete or no code of the table goes on that way. Reading stops at the first ill-formed group; a
group is read no further than the token that completes or refutes it.
-/

namespace Whitespace

/-- What is wrong with a group of tokens. -/
inductive DecodeFault where
  /-- No family has this code. -/
  | unknownFamily (code : Code)
  /-- The tokens end inside the code of a family. -/
  | familyCutOff
  /-- The tokens end right after the code of a family. -/
  | commandMissing (family : Family)
  /-- No command of the family has this code. -/
  | unknownCommand (family : Family) (code : Code)
  /-- The tokens end inside the code of a command. -/
  | commandCutOff (family : Family)
  /-- The tokens end inside an operand. -/
  | operandCutOff
  /-- A number ends before its sign. -/
  | signMissing
  /-- A number is no word. -/
  | numberOutOfRange (value : Int)
deriving DecidableEq, Repr

/-- What is wrong with a source, and where. -/
structure DecodeError where
  fault : DecodeFault
  location : Location
deriving DecidableEq, Repr

inductive DecodeFailure where
  | malformed (error : DecodeError)
  /-- The offending number has too many digits to be shown in a message. -/
  | digitLimit
deriving DecidableEq, Repr

namespace DecodeFault

def text : DecodeFault → String
  | unknownFamily code => "Unrecognized family '" ++ code.letters ++ "'"
  | familyCutOff => "Unexpected end of input while reading family"
  | commandMissing family => "Unexpected end of input after " ++ family.name ++ " prefix"
  | unknownCommand family code =>
    "Unrecognized " ++ family.name ++ " command '" ++ code.letters ++ "'"
  | commandCutOff family =>
    "Unexpected end of input while reading " ++ family.name ++ " command"
  | operandCutOff => "Unterminated operand"
  | signMissing => "Number operand is missing its sign"
  | numberOutOfRange value => "Number " ++ Decimal.ofInt value ++ " does not fit in 32 bits"

def name : DecodeFault → String
  | unknownFamily _ | familyCutOff => "UnrecognizedFamilyError"
  | commandMissing _ | unknownCommand _ _ | commandCutOff _ => "UnrecognizedCommandError"
  | operandCutOff => "UnterminatedOperandError"
  | signMissing | numberOutOfRange _ => "MalformedOperandError"

/-- Whether it is the end of the tokens that makes the group ill-formed. -/
def atEnd : DecodeFault → Bool
  | familyCutOff | commandMissing _ | commandCutOff _ | operandCutOff => true
  | unknownFamily _ | unknownCommand _ _ | signMissing | numberOutOfRange _ => false

/-- The failure that a fault at a place amounts to. -/
def failure (fault : DecodeFault) (location : Location) : DecodeFailure :=
  match fault with
  | numberOutOfRange value =>
    if Decimal.isWritable value.natAbs then .malformed ⟨fault, location⟩ else .digitLimit
  | _ => .malformed ⟨fault, location⟩

end DecodeFault

namespace DecodeError

/-- The message of an error: the fault and where it was found. -/
def message (e : DecodeError) : String :=
  e.fault.text ++ " at " ++ e.location.text

end DecodeError

namespace DecodeFailure

def message : DecodeFailure → String
  | malformed error => error.message
  | digitLimit =>
    "Exceeds the limit (" ++ Decimal.ofNat Decimal.digitLimit ++
      " digits) for integer string conversion; use sys.set_int_max_str_digits() to increase the " ++
      "limit"

/-- Whether the failure came from the end of the tokens. -/
def atEnd : DecodeFailure → Bool
  | malformed error => error.fault.atEnd
  | digitLimit => false

end DecodeFailure

/-- What following the codes of a table along the tokens leads to. -/
inductive CodeMatch (α : Type) where
  /-- A complete code, and the tokens after it. -/
  | found (value : α) (rest : List Token)
  /-- A sequence that no code starts with, and the tokens after it. -/
  | unmatched (code : Code) (rest : List Token)
  /-- The tokens end inside a code. -/
  | cutOff
deriving DecidableEq, Repr

/-- Follows the codes of a table token by token, after the tokens already `seen`. -/
def matchCode {α : Type} (table : List (Code × α)) (seen : Code) : List Token → CodeMatch α
  | [] => .cutOff
  | t :: rest =>
    let seen := seen ++ [t.kind]
    match table.lookup seen with
    | some value => .found value rest
    | none =>
      if table.any fun entry => seen.isPrefixOf entry.1 then matchCode table seen rest
      else .unmatched seen rest

/-- Reads bits up to a line feed, and gives the tokens after it; `none` if there is no line feed. A
tab is a one and a space is a zero. -/
def readBits : List Token → Option (List Bool × List Token)
  | [] => none
  | t :: rest =>
    match t.kind with
    | .lineFeed => some ([], rest)
    | .tab => (readBits rest).map fun (bits, rest) => (true :: bits, rest)
    | .space => (readBits rest).map fun (bits, rest) => (false :: bits, rest)

/-- The number that bits spell, most significant first. -/
def bitsValue (bits : List Bool) : Nat :=
  bits.foldl (fun n bit => 2 * n + bit.toNat) 0

def bitsName (bits : List Bool) : String :=
  String.ofList (bits.map fun bit => if bit then '1' else '0')

inductive OperandReading where
  | read (operand : Option Operand) (rest : List Token)
  | failed (fault : DecodeFault) (position : Position) (rest : List Token)
deriving DecidableEq, Repr

/-- Reads a number: its sign, then its magnitude. `start` is where the instruction starts. -/
def readNumber (start : Position) : List Token → OperandReading
  | [] => .failed .operandCutOff start []
  | sign :: rest =>
    if sign.kind = .lineFeed then .failed .signMissing sign.position rest
    else
      match readBits rest with
      | none => .failed .operandCutOff start []
      | some (bits, rest) =>
        let magnitude : Int := bitsValue bits
        let value := if sign.kind = .tab then -magnitude else magnitude
        if Word.InRange value then .read (some (.number value)) rest
        else .failed (.numberOutOfRange value) start rest

/-- Reads a label, whose target is not known yet. -/
def readLabel (start : Position) (tokens : List Token) : OperandReading :=
  match readBits tokens with
  | none => .failed .operandCutOff start []
  | some (bits, rest) => .read (some (.label (bitsName bits) none)) rest

def readOperand (command : Command) (start : Position) (tokens : List Token) : OperandReading :=
  match command.operandKind? with
  | none => .read none tokens
  | some .number => readNumber start tokens
  | some .label => readLabel start tokens

inductive Reading where
  /-- There are no more tokens. -/
  | ended
  /-- An instruction, and the tokens after it. -/
  | instruction (instruction : Instruction) (rest : List Token)
  /-- An ill-formed group, and the tokens after its last one read. -/
  | failed (failure : DecodeFailure) (rest : List Token)
deriving DecidableEq, Repr

def readInstruction (file : String) : List Token → Reading
  | [] => .ended
  | first :: rest =>
    let fail (fault : DecodeFault) (position : Position) (rest : List Token) : Reading :=
      .failed (fault.failure ⟨file, position⟩) rest
    match matchCode Family.codes [] (first :: rest) with
    | .cutOff => fail .familyCutOff first.position []
    | .unmatched code rest => fail (.unknownFamily code) first.position rest
    | .found family [] => fail (.commandMissing family) first.position []
    | .found family (second :: rest) =>
      match matchCode family.commandCodes [] (second :: rest) with
      | .cutOff => fail (.commandCutOff family) second.position []
      | .unmatched code rest => fail (.unknownCommand family code) second.position rest
      | .found command rest =>
        match readOperand command first.position rest with
        | .failed fault position rest => fail fault position rest
        | .read operand rest =>
          .instruction ⟨family, command, operand, some ⟨file, first.position⟩⟩ rest

/-- Decoded instructions, and where decoding stopped. -/
structure Decoded where
  instructions : List Instruction
  failure : Option DecodeFailure
  /-- The tokens not yet read. -/
  rest : List Token
  /-- Whether decoding ran into the end of the tokens. -/
  atEnd : Bool
deriving DecidableEq, Repr

/-- Decodes at most `count` instructions, and reads nothing beyond the last of them. -/
def decodeUpTo (file : String) : (count : Nat) → List Token → Decoded
  | 0, tokens => ⟨[], none, tokens, false⟩
  | count + 1, tokens =>
    match readInstruction file tokens with
    | .ended => ⟨[], none, [], true⟩
    | .failed failure rest => ⟨[], some failure, rest, failure.atEnd⟩
    | .instruction i rest =>
      let more := decodeUpTo file count rest
      { more with instructions := i :: more.instructions }

/-- Decodes up to the end of the tokens or the first ill-formed group. An instruction has at least
one token, so the bound is never reached. -/
def decodeAll (file : String) (tokens : List Token) : Decoded :=
  decodeUpTo file (tokens.length + 1) tokens

/-- The instructions that a list of tokens consists of. -/
def decode (file : String) (tokens : List Token) : Except DecodeFailure (List Instruction) :=
  let decoded := decodeAll file tokens
  match decoded.failure with
  | none => .ok decoded.instructions
  | some failure => .error failure

namespace Source

/-- Decodes at most `count` instructions of a source, or all of them, and leaves the source where
decoding stopped. -/
def decode (s : Source) (file : String) (count : Option Nat) : Decoded × Source :=
  let tokens := s.tokens
  let decoded :=
    match count with
    | none => decodeAll file tokens
    | some count => decodeUpTo file count tokens
  if decoded.atEnd then (decoded, s.finish)
  else (decoded, (s.take (tokens.length - decoded.rest.length)).2)

end Source

end Whitespace
