import Whitespace.Machine

/-!
# Executing an instruction

The effect of each command on a machine. An effect is the machine afterwards and, if the instruction
did not complete, why. A fault leaves the machine as it was, with two exceptions: a condition that
held is consumed although its label leads nowhere, and the address of a read is consumed although
the read failed.
-/

namespace Whitespace

/-- What executing leads to: the machine, and why it did not complete if it did not. -/
structure Effect where
  machine : Machine
  stop : Option Stop

namespace Effect

def completed (m : Machine) : Effect :=
  ⟨m, none⟩

def stopped (m : Machine) (stop : Stop) : Effect :=
  ⟨m, some stop⟩

def fault (m : Machine) (fault : Fault) : Effect :=
  stopped m (.fault (.ofFault fault))

end Effect

namespace Machine

/-- The effect of an instruction that needs more values than the stack has. -/
def underflow (m : Machine) (i : Instruction) (needed : Nat) : Effect :=
  .fault m (.stackUnderflow i needed m.stack.length)

/-- The value at a position of the stack, counted from its bottom. -/
def fromBottom? (m : Machine) (index : Int) : Option Int :=
  if index < 0 then none else m.stack.reverse[index.toNat]?

def executeStack (m : Machine) (i : Instruction) : Effect :=
  match i.command with
  | .push =>
    match i.number? with
    | some value => .completed (m.push value)
    | none => .fault m (.inconsistent i)
  | .duplicate =>
    match m.stack with
    | top :: _ => .completed (m.push top)
    | [] => m.underflow i 1
  | .copyNth =>
    match i.number? with
    | some index =>
      match m.fromBottom? index with
      | some value => .completed (m.push value)
      | none => .fault m (.outOfBounds i index 0 (m.stack.length - 1) "")
    | none => .fault m (.inconsistent i)
  | .swap =>
    match m.stack with
    | first :: second :: rest => .completed { m with stack := second :: first :: rest }
    | _ => m.underflow i 2
  | .discard =>
    match m.stack with
    | _ :: rest => .completed { m with stack := rest }
    | [] => m.underflow i 1
  | .slide =>
    match i.number? with
    | some count =>
      match m.stack with
      | top :: rest =>
        if count < 0 then .fault m (.outOfBounds i count 0 Word.maxValue "")
        else .completed { m with stack := top :: rest.drop count.toNat }
      | [] => m.underflow i 1
    | none => .fault m (.inconsistent i)
  | _ => .fault m (.inconsistent i)

def operation? : Command → Option (Int → Int → Int)
  | .add => some Word.add
  | .subtract => some Word.subtract
  | .multiply => some Word.multiply
  | .divide => some Word.divide
  | .modulo => some Word.modulo
  | _ => none

/-- The effect of an arithmetic command. The right operand is on top of the left one. -/
def executeArithmetic (m : Machine) (i : Instruction) : Effect :=
  match operation? i.command with
  | some operation =>
    match m.stack with
    | right :: left :: rest =>
      if right = 0 ∧ (i.command = .divide ∨ i.command = .modulo) then
        .stopped m (.divisionByZero i)
      else .completed { m with stack := operation left right :: rest }
    | _ => m.underflow i 2
  | none => .fault m (.inconsistent i)

/-- The effect of an instruction with an address that is not in the heap. -/
def badAddress (m : Machine) (i : Instruction) (address : Int) : Effect :=
  .fault m (.outOfBounds i address 0 (m.heap.size - 1) "")

/-- The effect of a heap command. A stored value is on top of its address. -/
def executeHeap (m : Machine) (i : Instruction) : Effect :=
  match i.command with
  | .store =>
    match m.stack with
    | value :: address :: rest =>
      match m.heap.address? address with
      | some cell => .completed { m with stack := rest, heap := m.heap.write cell value }
      | none => m.badAddress i address
    | _ => m.underflow i 2
  | .retrieve =>
    match m.stack with
    | address :: rest =>
      match m.heap.address? address with
      | some cell => .completed { m with stack := m.heap.read cell :: rest }
      | none => m.badAddress i address
    | [] => m.underflow i 1
  | _ => .fault m (.inconsistent i)

/-- Continues at the mark that the label of an instruction leads to. -/
def jump (m : Machine) (i : Instruction) : Effect :=
  match i.operand with
  | some (.label _ (some target)) => .completed { m with pointer := target }
  | some (.label _ none) => .fault m (.unresolvedLabel i)
  | _ => .fault m (.inconsistent i)

/-- Consumes the top value, and jumps if it satisfies a condition. -/
def jumpIf (m : Machine) (i : Instruction) (condition : Int → Bool) : Effect :=
  if i.labelName?.isNone then .fault m (.inconsistent i)
  else
    match m.stack with
    | value :: rest =>
      let m := { m with stack := rest }
      if condition value then m.jump i else .completed m
    | [] => m.underflow i 1

def executeFlow (m : Machine) (i : Instruction) : Effect :=
  match i.command with
  | .mark => if i.labelName?.isNone then .fault m (.inconsistent i) else .completed m
  | .call =>
    match i.operand with
    | some (.label _ (some target)) =>
      .completed { m with calls := m.pointer :: m.calls, pointer := target }
    | some (.label _ none) => .fault m (.unresolvedLabel i)
    | _ => .fault m (.inconsistent i)
  | .jump => m.jump i
  | .jumpIfZero => m.jumpIf i fun value => value = 0
  | .jumpIfNegative => m.jumpIf i fun value => value < 0
  | .ret =>
    match m.calls with
    | caller :: calls => .completed { m with calls := calls, pointer := caller }
    | [] => .fault m (.callStackUnderflow i)
  | .exit => .completed { m with done := true }
  | _ => .fault m (.inconsistent i)

def maxCodePoint : Int := 0x10FFFF

/-- Whether a code point stands for half of a character. -/
def isSurrogate (code : Int) : Bool :=
  0xD800 ≤ code && code ≤ 0xDFFF

/-- The stop that what an input device raises amounts to. -/
def inputStop (i : Instruction) : Raised → Stop
  | .device notice => .fault ⟨.input i (.device notice), none, none, some notice⟩
  | .runtime error => .fault error
  | .foreign notice | .interrupt notice => .foreign notice

/-- The word that a line of input denotes. The line is trimmed; no line at all is the end of the
input. -/
def readWord (i : Instruction) (line : String) : Except Stop Int :=
  let problem (p : InputProblem) : Except Stop Int := .error (.fault (.ofFault (.input i p)))
  if line = "" then problem .endOfInput
  else
    let trimmed := Text.trim line.toList
    match Decimal.Numeral.ofChars? trimmed with
    | none => problem (.notAnInteger (String.ofList trimmed))
    | some numeral =>
      if Decimal.digitLimit < numeral.digits.length then
        .error (.digitLimit numeral.digits.length)
      else if Word.InRange numeral.value then .ok numeral.value
      else problem (.outOfRange numeral.value)

/-- The word that a character of input denotes: the code point of the first character read. -/
def readCode (i : Instruction) (text : String) : Except Stop Int :=
  match text.toList with
  | c :: _ => .ok c.toNat
  | [] => .error (.fault (.ofFault (.input i .endOfInput)))

/-- Consumes an address, reads a text from the console, and stores the word it denotes. -/
def readInto (m : Machine) (i : Instruction)
    (read : Console → Except Raised String × Console)
    (word : Instruction → String → Except Stop Int) : Effect :=
  match m.stack with
  | address :: rest =>
    match m.heap.address? address with
    | some cell =>
      let (result, console) := read m.console
      let m := { m with stack := rest, console := console }
      match result with
      | .error raised => .stopped m (inputStop i raised)
      | .ok text =>
        match word i text with
        | .error stop => .stopped m stop
        | .ok value => .completed { m with heap := m.heap.write cell value }
    | none => m.badAddress i address
  | [] => m.underflow i 1

def executeIo (m : Machine) (i : Instruction) : Effect :=
  match i.command with
  | .outputCharacter =>
    match m.stack with
    | code :: rest =>
      if code < 0 ∨ maxCodePoint < code then .fault m (.outOfBounds i code 0 maxCodePoint "")
      else if isSurrogate code then
        .fault m
          (.outOfBounds i code 0 maxCodePoint "surrogate code points cannot be written")
      else
        let m := { m with stack := rest }
        .completed (m.output (String.singleton (Char.ofNat code.toNat)))
    | [] => m.underflow i 1
  | .outputNumber =>
    match m.stack with
    | number :: rest =>
      let m := { m with stack := rest }
      .completed (m.output (Decimal.ofInt number))
    | [] => m.underflow i 1
  | .readCharacter => m.readInto i (fun console => console.readChar) readCode
  | .readNumber => m.readInto i Console.readLine readWord
  | _ => .fault m (.inconsistent i)

/-- The effect of an instruction. Its family decides which commands it knows. -/
def execute (m : Machine) (i : Instruction) : Effect :=
  match i.family with
  | .stack => m.executeStack i
  | .arithmetic => m.executeArithmetic i
  | .heap => m.executeHeap i
  | .flow => m.executeFlow i
  | .io => m.executeIo i

/-- Remembers and executes an instruction, and advances the pointer whether or not the instruction
completed. A runtime error is told the step and the position. -/
def perform (m : Machine) (i : Instruction) : Effect :=
  let effect := (m.record i).execute i
  { machine := { effect.machine with pointer := effect.machine.pointer + 1 }
    stop := effect.stop.map (Stop.atStep m.pointer m.executed) }

def step (p : Program) (m : Machine) : Effect :=
  match m.next p with
  | .halted => .completed m
  | .instruction i => m.perform i
  | .outside => .stopped m .outsideProgram

end Machine

end Whitespace
