import Whitespace.Machine.Execute
import Whitespace.Observer

/-!
# Observed runs

A run executes steps until the program has exited, its end is reached, or a step does not complete.
Observers are told of the start, of a runtime error, and of the end by an exit; step rules are called
before each step. An error that an observer raises becomes a runtime error, unless it is one already.
If it is raised while a runtime error is reported, it does not replace that, but becomes its cause.
An interrupt is no error: it ends the run as it is, wherever it is raised.

A run need not end. It is given a number of steps as fuel, and has no result if that is used up.
-/

namespace Whitespace

/-- A machine and the journal of its observers, and why running did not complete if it did not. -/
structure Observed (Notes : Type) where
  machine : Machine
  journal : Journal Notes
  stop : Option Stop

namespace Event

def startName : String := "program_start"

def endName : String := "program_end"

def errorName : String := "on_error"

end Event

namespace Machine

variable {Notes : Type}

/-- The stop that what a step rule raises before an instruction amounts to. -/
def ruleStop (m : Machine) (i : Instruction) : Raised → Stop
  | .runtime error => .fault error
  | .device notice | .foreign notice =>
    .fault ⟨.stepRule i notice, some m.pointer, none, some notice⟩
  | .interrupt notice => .foreign notice

/-- The stop that what a hook raises amounts to. -/
def hookStop (m : Machine) (event : String) : Raised → Stop
  | .runtime error => .fault error
  | .device notice | .foreign notice =>
    .fault ⟨.eventHook event m.last notice, none, none, some notice⟩
  | .interrupt notice => .foreign notice

/-- Tells the hooks of an event, and gives the stop for what a hook raised. -/
def announce (r : Registry Notes) (m : Machine) (event : String) (error : Option RuntimeError)
    (journal : Journal Notes) : Journal Notes × Option Stop :=
  let (journal, raised) := r.emit ⟨event, some m, error⟩ journal
  (journal, raised.map (m.hookStop event))

/-- Calls the step rules, and executes the next instruction unless a rule raised. -/
def observedStep (r : Registry Notes) (p : Program) (m : Machine) (journal : Journal Notes) :
    Observed Notes :=
  match m.next p with
  | .halted => ⟨m, journal, none⟩
  | .outside => ⟨m, journal, some .outsideProgram⟩
  | .instruction i =>
    match r.beforeStep m (r.snapshot m i) journal with
    | (journal, some raised) => ⟨m, journal, some (m.ruleStop i raised)⟩
    | (journal, none) =>
      let effect := m.perform i
      ⟨effect.machine, journal, effect.stop⟩

/-- Executes steps until the machine halts or a step does not complete; `none` if that takes more
steps than there is fuel. -/
def loop (r : Registry Notes) (p : Program) :
    (fuel : Nat) → Machine → Journal Notes → Option (Observed Notes)
  | 0, _, _ => none
  | fuel + 1, m, journal =>
    match m.next p with
    | .halted => some ⟨m, journal, none⟩
    | _ =>
      let observed := observedStep r p m journal
      match observed.stop with
      | some _ => some observed
      | none => loop r p fuel observed.machine observed.journal

/-- A runtime error as a run reports it: without a step, it gets the latest one. -/
def placed (m : Machine) (error : RuntimeError) : RuntimeError :=
  { error with step := error.step.or (m.log.head?.map LogEntry.step) }

/-- The stop of a run that has reported a runtime error, by what the hooks have answered. -/
def reportStop (error : RuntimeError) : Option Stop → Stop
  | none => .fault error
  | some (.fault failure) => .fault { error with cause := some failure.notice }
  | some stop => stop

def report (r : Registry Notes) (m : Machine) (journal : Journal Notes) (error : RuntimeError) :
    Observed Notes :=
  let (journal, stop) := announce r m Event.errorName (some (m.placed error)) journal
  ⟨m, journal, some (reportStop (m.placed error) stop)⟩

def conclude (r : Registry Notes) (observed : Observed Notes) : Observed Notes :=
  let m := observed.machine
  match observed.stop with
  | some (.fault error) => report r m observed.journal error
  | some _ => observed
  | none =>
    if m.done then
      let (journal, stop) := announce r m Event.endName none observed.journal
      ⟨m, journal, stop⟩
    else report r m observed.journal (.ofFault (.missingTermination m.last))

/-- Runs a machine; `none` if that takes more steps than there is fuel. -/
def run (fuel : Nat) (r : Registry Notes) (p : Program) (m : Machine) (journal : Journal Notes) :
    Option (Observed Notes) :=
  match announce r m Event.startName none journal with
  | (journal, some stop) => some ⟨m, journal, some stop⟩
  | (journal, none) => (loop r p fuel m journal).map (conclude r)

end Machine

end Whitespace
