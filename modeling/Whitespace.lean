import Whitespace.Main
import Whitespace.Proofs.CommandLine.Outcome
import Whitespace.Proofs.Machine.Atomicity
import Whitespace.Proofs.Machine.ByName
import Whitespace.Proofs.Machine.Endings
import Whitespace.Proofs.Machine.Observation
import Whitespace.Proofs.Machine.Restart
import Whitespace.Proofs.Grammar.Continuation
import Whitespace.Proofs.Program.Encodings
import Whitespace.Proofs.Machine.Lifecycle
import Whitespace.Proofs.CommandLine.Diagnostics
import Whitespace.Proofs.Machine.Course
import Whitespace.Proofs.Machine.Termination
import Whitespace.Proofs.Machine.Calls
import Whitespace.Proofs.Machine.HeapSize
import Whitespace.Proofs.Machine.Silence
import Whitespace.Proofs.Machine.StepLog
import Whitespace.Proofs.Machine.RuleFailures
import Whitespace.Proofs.CommandLine.Blame
import Whitespace.Proofs.Grammar.Diagnosis
import Whitespace.Proofs.Program.Locations
import Whitespace.Proofs.Machine.FaultConditions
import Whitespace.Proofs.Program.Resumption
import Whitespace.Proofs.Program.Resolution
import Whitespace.Proofs.Program.Tokens
import Whitespace.Proofs.Machine.Dialogue
import Whitespace.Proofs.Machine.Tracebacks
import Whitespace.Proofs.Machine.Arithmetic
import Whitespace.Proofs.Machine.ReadBack
import Whitespace.Proofs.Machine.Consumption
import Whitespace.Proofs.Machine.Slide
import Whitespace.Proofs.Observer.Schedule
import Whitespace.Proofs.Observer.Loading
