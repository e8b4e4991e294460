import Whitespace.CommandLine.Settings
import Whitespace.Extension.Load
import Whitespace.Machine.Run
import Whitespace.Text.Utf8
import Whitespace.Traceback

/-!
# The command

The command reads a source file, and shows its instructions or runs them. What the program writes
goes to the standard output, all else to the standard error. The command ends with status zero if the
instructions were shown or the program ended by an exit, and with status one if something was
reported.

Running is split in three: what comes before the first step, the run itself, and what comes after it.
-/

namespace Whitespace.CommandLine

inductive Exit where
  | status (code : Nat)
  /-- By an error that it does not report. -/
  | escaped (notice : Notice)
deriving DecidableEq, Repr

/-- What settings amount to once they were checked. -/
structure Config where
  /-- The path of the source file, unless it was removed. -/
  file : Option String
  encoding : Encoding
  heapSize : Nat
deriving DecidableEq, Repr

def defaultHeapSize : Nat := 524288

inductive ConfigError where
  /-- The name of the encoding was removed. -/
  | encodingRemoved
  | unknownEncoding (name : String)
  /-- The heap size was removed. -/
  | sizeRemoved
  | negativeSize (size : Int)
deriving DecidableEq, Repr

def configure (s : Settings) : Except ConfigError Config :=
  match s.sourceType.toOption with
  | none => .error .encodingRemoved
  | some name =>
    match Encoding.ofName? name with
    | none => .error (.unknownEncoding name)
    | some encoding =>
      match s.heapSize with
      | .unset => .ok ⟨s.file.toOption, encoding, defaultHeapSize⟩
      | .removed => .error .sizeRemoved
      | .given size =>
        if size < 0 then .error (.negativeSize size)
        else .ok ⟨s.file.toOption, encoding, size.toNat⟩

inductive SourceFailure where
  /-- The path was removed. -/
  | pathRemoved
  | unreadable (path : String) (error : FileError)
  /-- The path holds a null character, which no path may hold. -/
  | invalidPath
  /-- The file is not UTF-8. -/
  | undecodable (fault : Utf8.Fault)
  | illFormed (failure : DecodeFailure)
deriving DecidableEq, Repr

/-- The text of a file: its bytes decoded, with the line breaks unified. -/
def fileText (bytes : List UInt8) : Except Utf8.Fault String :=
  (Utf8.decode bytes).map fun cs => String.ofList (Text.unifyBreaks cs)

def readProgram (config : Config) (content : String → Except FileError (List UInt8)) :
    Except SourceFailure Program :=
  match config.file with
  | none => .error .pathRemoved
  | some file =>
    if file.toList.contains '\x00' then .error .invalidPath
    else
      match content file with
      | .error e => .error (.unreadable file e)
      | .ok bytes =>
        match fileText bytes with
        | .error fault => .error (.undecodable fault)
        | .ok text => (Program.parse file config.encoding text).mapError .illFormed

def line (text : String) : String :=
  text ++ "\n"

/-- A line about the progress of the command. -/
def status (s : Settings) (text : String) : String :=
  if s.quiet then "" else line text

/-- How the command ends on settings that were not accepted, and what it reports. -/
def configReport : ConfigError → Exit × String
  | .encodingRemoved =>
    (.escaped ⟨"AttributeError", "'list' object has no attribute 'strip'"⟩, "")
  | .unknownEncoding name =>
    (.status 1, line ("Invalid configuration: " ++ Encoding.unknownName name))
  | .sizeRemoved =>
    (.escaped ⟨"TypeError", "'<' not supported between instances of 'list' and 'int'"⟩, "")
  | .negativeSize size => (.status 1, line ("Invalid configuration: " ++ Heap.negativeSize size))

/-- What the command reports about a file that the system refuses to read. -/
def unreadableReport (file reason : String) : String :=
  line ("Failed to read " ++ file ++ ": " ++ reason)

/-- How the command ends after a file that did not yield a program, and what it reports. -/
def sourceReport : SourceFailure → Exit × String
  | .pathRemoved => (.escaped ⟨"TypeError", Path.removedMessage⟩, "")
  | .unreadable file e => (.status 1, unreadableReport file (e.message file))
  | .invalidPath => (.escaped ⟨"ValueError", "embedded null byte"⟩, "")
  | .undecodable fault => (.escaped ⟨"UnicodeDecodeError", fault.message⟩, "")
  | .illFormed failure =>
    match failure with
    | .malformed error => (.status 1, line ("ParseError: " ++ error.message))
    | .digitLimit => (.escaped ⟨"ValueError", failure.message⟩, "")

/-- How the command ends after an extension that was not loaded, and what it reports. Errors are told
apart by their kind alone, so that an error of the system is reported as if it were about the source
file; where the path of that was removed, an empty list stands for it. -/
def loadReport (file : Option String) (e : LoadError) : Exit × String :=
  let notice := e.failure.notice
  match e.failure.kind with
  | .system => (.status 1, unreadableReport (file.getD "[]") notice.text)
  | .decoding => (.status 1, line ("ParseError: " ++ notice.text))
  | .extension => (.status 1, line ("ExtensionError: " ++ notice.text))
  | .other => (.escaped notice, "")

def rawLine (index : Nat) (i : Instruction) : String :=
  Decimal.ofNat index ++ "\t" ++ i.family.name ++ "\t" ++ i.text ++ "\n"

def rawLines (p : Program) : String :=
  String.join (p.instructions.toList.mapIdx rawLine)

/-- What comes before the first step. -/
inductive Prepared (Notes : Type) where
  /-- The command ends without running a program. -/
  | ended (exit : Exit) (out err : String)
  /-- A program is ready to run, and the lines so far. -/
  | ready (program : Program) (machine : Machine) (registry : Registry Notes) (err : String)

variable {Notes : Type}

/-- Prepares a run, from the observers of the extensions and the bytes of the source file. The time
it took is given as text. -/
def prepare (s : Settings) (observers : Except LoadError (Registry Notes))
    (content : String → Except FileError (List UInt8)) (console : Console) (elapsed : String) :
    Prepared Notes :=
  match configure s with
  | .error e =>
    let (exit, report) := configReport e
    .ended exit "" report
  | .ok config =>
    let err := status s
      "initializing, loading and parsing the provided source, creating the virtual machine..."
    let program := readProgram config content
    let sourceFailed (failure : SourceFailure) : Prepared Notes :=
      let (exit, report) := sourceReport failure
      .ended exit "" (err ++ report)
    if s.raw then
      match program with
      | .error failure => sourceFailed failure
      | .ok p => .ended (.status 0) (rawLines p) err
    else
      match observers with
      | .error e =>
        let (exit, report) := loadReport config.file e
        .ended exit "" (err ++ report)
      | .ok registry =>
        match program with
        | .error failure => sourceFailed failure
        | .ok p =>
          match Heap.sizeProblem? config.heapSize with
          | some problem => .ended (.escaped ⟨problem.name, problem.message⟩) "" err
          | none =>
            .ready p (.start config.heapSize s.noOutput console) registry
              (err ++ status s ("initialized in " ++ elapsed) ++
                status s "starting to execute whitespace routine...\n\n")

/-- What comes after the last step: how the command ends, and the lines about it. -/
def conclude (s : Settings) (p : Program) (m : Machine) (stop : Option Stop) (elapsed : String) :
    Exit × String :=
  match stop with
  | none =>
    (.status 0, status s ("\n\nexecuted " ++ Decimal.ofNat m.executed ++ " instructions") ++
      status s ("\n\nroutine took " ++ elapsed))
  | some (.fault e) =>
    (.status 1, line (Traceback.text p m e s.debug) ++
      if s.tracebackJson then line (Traceback.json p m e).pretty else "")
  | some (.divisionByZero i) =>
    (.status 1, line ("ArithmeticError: " ++ (Stop.divisionByZero i).notice.text))
  | some stop => (.escaped stop.notice, "")

structure Report (Notes : Type) where
  exit : Exit
  out : String
  err : String
  notes : Notes

/-- The command on accepted settings, in a folder and with a text as its input; `none` if the
program takes more steps than there is fuel. -/
def execute (fuel : Nat) (folder : Folder Notes) (input : String) (s : Settings) (notes : Notes)
    (elapsed : String) : Option (Report Notes) :=
  let observers := folder.loadObservers s.extensions s.debug s.debugHeap
  match prepare s observers folder.read (.ofText input) elapsed with
  | .ended exit out err => some ⟨exit, out, err, notes⟩
  | .ready p m registry err =>
    (m.run fuel registry p ⟨#[], notes⟩).map fun observed =>
      let trace := String.join (observed.journal.trace.toList.map line)
      let (exit, report) := conclude s p observed.machine observed.stop elapsed
      ⟨exit, observed.machine.console.shown, err ++ trace ++ report, observed.journal.notes⟩

def commandName : String := "spacey"

inductive Answer (Notes : Type) where
  | help
  /-- The arguments are not accepted. -/
  | refused (message : String)
  | report (report : Report Notes)

/-- The command on its arguments; `none` if the program takes more steps than there is fuel. -/
def run (fuel : Nat) (folder : Folder Notes) (input : String) (arguments : List String)
    (notes : Notes) (elapsed : String) : Option (Answer Notes) :=
  match readSettings arguments with
  | .error .help => some .help
  | .error (.error e) => some (.refused (commandName ++ ": error: " ++ e.message))
  | .ok s => (execute fuel folder input s notes elapsed).map .report

end Whitespace.CommandLine
