import Whitespace.CommandLine.Run

/-!
# The command in its surroundings

Reads files and the standard input, and writes what the library answers. Programs run step by step,
so that output is seen at once and input is read only when a program asks for it. Extensions cannot
be loaded here: a path that exists is reported as not loadable.
-/

namespace Whitespace.CommandLine

def usage : String :=
  "usage: " ++ commandName ++ " -f FILE -t TYPE [options]\n\n" ++
  "  -f, --file FILE          source file to interpret\n" ++
  "  -t, --source-type TYPE   type of the source file: whitespace, ws or stl\n" ++
  "  -s, --heap-size N        number of heap cells\n" ++
  "  -i, --raw                print the decoded instructions\n" ++
  "  -d, --debug              trace every instruction\n" ++
  "  -m, --debug-heap         trace every instruction with the heap\n" ++
  "  -q, --quiet              print no status lines\n" ++
  "  -n, --no-output          drop the output of the program\n" ++
  "      --ext PATH           load an extension\n" ++
  "      --traceback-json     report errors also as JSON\n"

def fileError : IO.Error → FileError
  | .inappropriateType _ code _ => if code = 21 then .isDirectory else .notDirectory
  | .permissionDenied .. => .accessDenied
  | .invalidArgument _ code _ => if code = 22 then .notFound else .nameTooLong
  | _ => .notFound

def readFile (path : String) : IO (Except FileError (List UInt8)) := do
  try
    return .ok (← IO.FS.readBinFile path).toList
  catch e =>
    return .error (fileError e)

def loadObservers (s : Settings) : IO (Except LoadError (Registry Unit)) := do
  let directory := (← IO.currentDir).toString
  match s.extensions.mapM id with
  | none => return .error .pathRemoved
  | some [] => return .ok (.builtin s.debug s.debugHeap)
  | some (path :: _) =>
    let path := Path.absolute directory path
    match ← readFile path with
    | .error .notFound => return .error (.notFound path)
    | _ => return .error (.notLoadable path)

/-- The time since a moment, in milliseconds and in nanoseconds. -/
def elapsedSince (start : Nat) : IO String := do
  let elapsed := (← IO.monoNanosNow) - start
  return Decimal.ofNat (elapsed / 1000000) ++ " ms (" ++ Decimal.ofNat elapsed ++ " ns)"

/-- Appends a text to the input of a machine that reads a stream. -/
def appendInput (m : Machine) (text : String) : Machine :=
  match m.console.input with
  | .stream pending =>
    let input := Input.stream (pending ++ Text.unifyBreaks text.toList)
    { m with console := { m.console with input := input } }
  | .scripted .. => m

/-- Whether an instruction is about to read what the machine does not have yet. -/
def awaitsInput (m : Machine) (i : Instruction) : Bool :=
  let isReady := (m.stack.head?.bind m.heap.address?).isSome
  match i.family, i.command, m.console.input with
  | .io, .readCharacter, .stream pending => isReady && pending.isEmpty
  | .io, .readNumber, .stream pending => isReady && !pending.contains '\n'
  | _, _, _ => false

/-- Writes what a machine and its observers have shown. -/
def flush (observed : Observed Unit) : IO (Observed Unit) := do
  let out ← IO.getStdout
  let err ← IO.getStderr
  let shown := observed.machine.console.shown
  if shown ≠ "" then
    out.putStr shown
    out.flush
  for text in observed.journal.trace do
    err.putStrLn text
  let console := { observed.machine.console with shown := "" }
  return { observed with
    machine := { observed.machine with console := console }
    journal := ⟨#[], ()⟩ }

/-- Executes steps, reading input and writing output on the way. -/
partial def runSteps (r : Registry Unit) (p : Program) (m : Machine) : IO (Observed Unit) := do
  match m.next p with
  | .halted => return ⟨m, ⟨#[], ()⟩, none⟩
  | next =>
    let m ←
      match next with
      | .instruction i =>
        if awaitsInput m i then pure (appendInput m (← (← IO.getStdin).getLine)) else pure m
      | _ => pure m
    let observed ← flush (m.observedStep r p ⟨#[], ()⟩)
    match observed.stop with
    | some _ => return observed
    | none => runSteps r p observed.machine

def runProgram (r : Registry Unit) (p : Program) (m : Machine) : IO (Observed Unit) := do
  match m.announce r Event.startName none ⟨#[], ()⟩ with
  | (journal, some stop) => return ⟨m, journal, some stop⟩
  | (_, none) => flush (Machine.conclude r (← runSteps r p m))

/-- The status that the command ends with; an error that it does not report is shown here. -/
def leave (exit : Exit) : IO UInt32 := do
  match exit with
  | .status code => return code.toUInt32
  | .escaped notice =>
    IO.eprintln (notice.name ++ ": " ++ notice.text)
    return 1

/-- The command on accepted settings. -/
def serve (s : Settings) : IO UInt32 := do
  let start ← IO.monoNanosNow
  let observers ← loadObservers s
  let content ← readFile (s.file.toOption.getD "")
  let elapsed ← elapsedSince start
  match prepare s observers (fun _ => content) (.ofText "") elapsed with
  | .ended exit out err =>
    IO.print out
    IO.eprint err
    leave exit
  | .ready p m r err =>
    IO.eprint err
    let start ← IO.monoNanosNow
    let observed ← runProgram r p m
    let (exit, report) := conclude s p observed.machine observed.stop (← elapsedSince start)
    IO.eprint report
    leave exit

end Whitespace.CommandLine

open Whitespace.CommandLine in
def main (arguments : List String) : IO UInt32 := do
  match readSettings arguments with
  | .error .help =>
    IO.print usage
    return 0
  | .error (.error e) =>
    IO.eprintln (commandName ++ ": error: " ++ e.message)
    return 2
  | .ok s => serve s
