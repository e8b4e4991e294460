import Whitespace.Json
import Whitespace.Machine
import Whitespace.Text.Number

/-!
# Reports on runtime errors

A report shows the calls that were active when a program stopped, outermost first, and the
instruction that stopped it. There is one frame for each call and one for the instruction. A frame is
named for the label that was called to enter it.
-/

namespace Whitespace

/-- An active call, or the instruction that stopped the program. -/
structure Frame where
  name : String
  pointer : Option Int
  instruction : Option Instruction
deriving DecidableEq, Repr

namespace Frame

def place (f : Frame) : String :=
  match f.pointer with
  | none => "<end of program>"
  | some pointer => "instruction " ++ Decimal.ofInt pointer

def lines (f : Frame) : List String :=
  let place := f.place ++ ", in " ++ f.name
  let header :=
    match f.instruction.bind Instruction.location with
    | none => "  " ++ place
    | some l =>
      "  File \"" ++ l.file ++ "\", line " ++ Decimal.ofInt l.position.line ++ ", column " ++
        Decimal.ofInt l.position.column ++ ", " ++ place
  header :: (f.instruction.map fun i => "    " ++ i.text).toList

def json (index : Nat) (f : Frame) : Json :=
  let location (l : Location) : String × Json :=
    ("source_location", .record [
      ("file", .text l.file),
      ("line", .number l.position.line),
      ("column", .number l.position.column)])
  .record (
    [("frame_index", .number index), ("name", .text f.name)] ++
      (f.pointer.map fun pointer => ("instruction_pointer", Json.number pointer)).toList ++
      (f.instruction.map fun i => ("instruction", Json.text i.text)).toList ++
      ((f.instruction.bind Instruction.location).map location).toList)

end Frame

namespace Traceback

def callName (call : Option Instruction) : String :=
  "label '" ++ (call.bind Instruction.labelName?).getD "?" ++ "'"

/-- The frames of a stopped program, outermost first. -/
def frames (p : Program) (m : Machine) (e : RuntimeError) : List Frame :=
  let calls := m.calls.reverse.map fun position => (some position, p.at? position)
  let names := "<top-level>" :: calls.map fun call => callName call.2
  List.zipWith (fun name (pointer, instruction) => ⟨name, pointer, instruction⟩) names
    (calls ++ [(e.pointer, e.fault.instruction?)])

def stepLine (entry : LogEntry) : String :=
  "    #" ++ Decimal.ofNat entry.step ++ " ip=" ++ Decimal.ofInt entry.pointer ++ " " ++
    entry.instruction.text

/-- The report on an error as text. A verbose report shows the stack and the latest steps. -/
def text (p : Program) (m : Machine) (e : RuntimeError) (verbose : Bool) : String :=
  let details :=
    if verbose then
      ["  Stack: " ++ Text.numberList m.stack.reverse, "  Recent steps:"] ++
        m.history.map stepLine
    else []
  let step := (e.step.map fun step => " (step " ++ Decimal.ofNat step ++ ")").getD ""
  String.intercalate "\n" (
    ["Traceback (most recent call last):"] ++ (frames p m e).flatMap Frame.lines ++ details ++
      [e.fault.name ++ ": " ++ e.fault.message ++ step])

def stepJson (entry : LogEntry) : Json :=
  .record [
    ("step_index", .number entry.step),
    ("instruction_pointer", .number entry.pointer),
    ("instruction", .text entry.instruction.text)]

def json (p : Program) (m : Machine) (e : RuntimeError) : Json :=
  .record [
    ("error", .record [
      ("type", .text e.fault.name),
      ("message", .text e.fault.message),
      ("failing_step_index", .ofOption (fun step => .number step) e.step)]),
    ("stack", .list (m.stack.reverse.map .number)),
    ("call_stack", .list (m.calls.reverse.map .number)),
    ("recent_steps", .list (m.history.map stepJson)),
    ("traceback", .list ((frames p m e).mapIdx Frame.json))]

end Traceback

end Whitespace
