import Whitespace.Instruction
import Whitespace.Word

/-!
# Faults

What can go wrong while a program runs. A fault is a cause; a runtime error is a fault with the step
it belongs to. Some failures are no runtime errors: they end a run without being reported to
observers.
-/

namespace Whitespace

/-- The name and the text under which an error is shown. -/
structure Notice where
  name : String
  text : String
deriving DecidableEq, Repr

/-- Why a read did not yield a value. -/
inductive InputProblem where
  | endOfInput
  /-- The trimmed line is no decimal number. -/
  | notAnInteger (line : String)
  /-- The number is no word. -/
  | outOfRange (number : Int)
  /-- The input device failed. -/
  | device (notice : Notice)
deriving DecidableEq, Repr

namespace InputProblem

/-- A problem in words. A device that says nothing is shown by the name of its error. -/
def text : InputProblem → String
  | endOfInput => "end of input"
  | notAnInteger line => "not an integer: " ++ Text.quoted line
  | outOfRange number => Decimal.ofInt number ++ " does not fit in 32 bits"
  | device notice => if notice.text = "" then notice.name else notice.text

end InputProblem

/-- What a program, its input or an observer did wrong. -/
inductive Fault where
  /-- The family or the operand does not belong to the command. -/
  | inconsistent (instruction : Instruction)
  | stackUnderflow (instruction : Instruction) (needed present : Nat)
  /-- There is no call to return from. -/
  | callStackUnderflow (instruction : Instruction)
  /-- A number is not between two bounds, or not allowed for another reason. -/
  | outOfBounds (instruction : Instruction) (value low high : Int) (reason : String)
  /-- The program ended without an exit. -/
  | missingTermination (last : Option Instruction)
  | input (instruction : Instruction) (problem : InputProblem)
  /-- A jump to a label that no mark defines was taken. -/
  | unresolvedLabel (instruction : Instruction)
  /-- A step rule failed before an instruction. -/
  | stepRule (instruction : Instruction) (notice : Notice)
  /-- A hook on an event failed. -/
  | eventHook (event : String) (last : Option Instruction) (notice : Notice)
  /-- An observer or an input device raised a runtime error of its own. -/
  | reported (notice : Notice)
deriving DecidableEq, Repr

namespace Fault

def name : Fault → String
  | inconsistent _ => "InternalConsistencyError"
  | stackUnderflow .. | callStackUnderflow _ => "StackUnderflowError"
  | outOfBounds .. => "BoundsViolationError"
  | missingTermination _ => "MissingTerminationError"
  | input .. => "InputFaultError"
  | unresolvedLabel _ => "UnresolvedLabelError"
  | stepRule .. | eventHook .. => "ExtensionHookError"
  | reported notice => notice.name

/-- The instruction that a fault is blamed on. -/
def instruction? : Fault → Option Instruction
  | inconsistent i | stackUnderflow i _ _ | callStackUnderflow i | outOfBounds i _ _ _ _ | input i _
  | unresolvedLabel i | stepRule i _ => some i
  | missingTermination last | eventHook _ last _ => last
  | reported _ => none

/-- The message for an instruction that lacks values on a stack. -/
def underflowMessage (what : String) (i : Instruction) (needed present : Nat) : String :=
  what ++ " underflow: " ++ i.text ++ " needs " ++ Decimal.ofNat needed ++ " value(s), " ++
    Decimal.ofNat present ++ " present"

def message : Fault → String
  | inconsistent i => "Decoder delivered an inconsistent instruction: " ++ i.details
  | stackUnderflow i needed present => underflowMessage "stack" i needed present
  | callStackUnderflow i => underflowMessage "call stack" i 1 0
  | outOfBounds i value low high reason =>
    "Number out of bounds for " ++ i.text ++ ": expected in [" ++ Decimal.ofInt low ++ ", " ++
      Decimal.ofInt high ++ "] but was " ++ Decimal.ofInt value ++
      (if reason = "" then "" else " (" ++ reason ++ ")")
  | missingTermination last =>
    "Program ended without exit; last executed instruction: " ++
      (last.map Instruction.text).getD "nothing"
  | input i problem => "Input error in " ++ i.text ++ ": " ++ problem.text
  | unresolvedLabel i =>
    "No mark defines label '" ++ i.labelName?.getD "?" ++ "' used by " ++ i.text
  | stepRule _ notice => "Extension step rule failed: " ++ notice.text
  | eventHook event _ notice => "Extension hook '" ++ event ++ "' failed: " ++ notice.text
  | reported notice => notice.text

end Fault

/-- A fault, and the step at which it stopped the program. -/
structure RuntimeError where
  fault : Fault
  /-- The position of the instruction. -/
  pointer : Option Int
  /-- The number of steps executed before. -/
  step : Option Nat
  /-- The error behind this one. -/
  cause : Option Notice
deriving DecidableEq, Repr

namespace RuntimeError

/-- A fault of which the step is not known yet. -/
def ofFault (fault : Fault) : RuntimeError :=
  ⟨fault, none, none, none⟩

/-- How the error is shown as the cause of another. -/
def notice (e : RuntimeError) : Notice :=
  ⟨e.fault.name, e.fault.message⟩

/-- The error of a step: the position is filled in where it is missing. -/
def atStep (e : RuntimeError) (pointer : Int) (step : Nat) : RuntimeError :=
  { e with pointer := e.pointer.or (some pointer), step := some step }

end RuntimeError

/-- What an observer or an input device may raise. -/
inductive Raised where
  /-- The input device failed. -/
  | device (notice : Notice)
  | runtime (error : RuntimeError)
  /-- An error that this library does not know. -/
  | foreign (notice : Notice)
  /-- No error, but a request to end the whole program. It is not held up on its way out. -/
  | interrupt (notice : Notice)
deriving DecidableEq, Repr

namespace Raised

/-- How what was raised is shown as the cause of an error. -/
def notice : Raised → Notice
  | device notice | foreign notice | interrupt notice => notice
  | runtime error => error.notice

end Raised

/-- Why a step did not complete. -/
inductive Stop where
  | fault (error : RuntimeError)
  /-- A division by zero, which is no runtime error. -/
  | divisionByZero (instruction : Instruction)
  /-- A number line has too many digits to be converted. -/
  | digitLimit (digits : Nat)
  /-- The pointer lies before the start of the program. -/
  | outsideProgram
  /-- An input device raised an error that this library does not know, or the whole program is to
  end. -/
  | foreign (notice : Notice)
deriving DecidableEq, Repr

namespace Stop

def notice : Stop → Notice
  | fault error => error.notice
  | divisionByZero i => ⟨"ZeroDivisionError", "integer division by zero in " ++ i.text⟩
  | digitLimit digits =>
    ⟨"ValueError", "Exceeds the limit (" ++ Decimal.ofNat Decimal.digitLimit ++
      " digits) for integer string conversion: value has " ++ Decimal.ofNat digits ++
      " digits; use sys.set_int_max_str_digits() to increase the limit"⟩
  | outsideProgram => ⟨"IndexError", "tuple index out of range"⟩
  | foreign notice => notice

def atStep (pointer : Int) (step : Nat) : Stop → Stop
  | fault error => .fault (error.atStep pointer step)
  | stop => stop

end Stop

end Whitespace
