import Whitespace.Proofs.Machine.Bounds
import Whitespace.Proofs.Machine.Transfer

/-!
# Faults of decoded programs

A fault of a step is the step's own or was raised by the input device. A machine on the program of a
text never has an inconsistent instruction to execute, so the only internal errors are those that
its input device raises.

Results:
1. `Machine.Reachable.raises`: along a history the console raises nothing new.
2. `Machine.step_fault`: the faults that a step may have.
3. `Machine.step_not_inconsistent`: no step of a decoded program is reported as inconsistent.
-/

namespace Whitespace

/-! ## What a console raises -/

namespace Console

/-- A read of the console raises this, sooner or later. -/
def Raises (c : Console) (raised : Raised) : Prop :=
  match c.input with
  | .scripted lines chars => .error raised ∈ lines ∨ .error raised ∈ chars
  | .stream _ => False

theorem takeItem_raises {items : List (Except Raised String)} {raised : Raised}
    (h : (takeItem items).1 = .error raised ∨ .error raised ∈ (takeItem items).2) :
    .error raised ∈ items := by
  cases items with
  | nil => rcases h with h | h <;> cases h
  | cons item items =>
    rcases h with h | h
    · rw [← h]
      exact List.mem_cons_self
    · exact List.mem_cons_of_mem _ h

theorem readChar_raises {c : Console} (echo : Bool) {raised : Raised}
    (h : (c.readChar echo).1 = .error raised ∨ (c.readChar echo).2.Raises raised) :
    c.Raises raised := by
  rcases c with ⟨⟨lines, chars⟩ | ⟨_ | ⟨char, pending⟩⟩, shown⟩
  · rcases h with h | h | h
    · exact .inr (takeItem_raises (.inl h))
    · exact .inl h
    · exact .inr (takeItem_raises (.inr h))
  · rcases h with h | h <;> cases h
  · cases echo <;> rcases h with h | h <;> cases h

theorem readLine_raises {c : Console} {raised : Raised}
    (h : c.readLine.1 = .error raised ∨ c.readLine.2.Raises raised) : c.Raises raised := by
  rcases c with ⟨⟨lines, chars⟩ | pending, shown⟩
  · rcases h with h | h | h
    · exact .inl (takeItem_raises (.inl h))
    · exact .inl (takeItem_raises (.inr h))
    · exact .inr h
  · rcases h with h | h <;> cases h

end Console

namespace Machine

variable {Notes : Type} {m : Machine} {i : Instruction}

/-- What a read raises, and what it leaves to be raised, was there to be raised before. -/
theorem reader?_raises {c : Command} {read : Console → Except Raised String × Console}
    {word : Instruction → String → Except Stop Int} (hc : c.reader? = some (read, word))
    {before after : Console} {result : Except Raised String} {raised : Raised}
    (hr : read before = (result, after)) (h : result = .error raised ∨ after.Raises raised) :
    before.Raises raised := by
  cases c <;> cases hc
  · have hr : before.readChar = (result, after) := hr
    refine Console.readChar_raises (c := before) true ?_
    rw [hr]
    exact h
  · refine Console.readLine_raises (c := before) ?_
    rw [hr]
    exact h

/-- A text that denotes no word is an input problem, or has too many digits. -/
theorem reader?_refused {c : Command} {read : Console → Except Raised String × Console}
    {word : Instruction → String → Except Stop Int} (hc : c.reader? = some (read, word))
    {text : String} {stop : Stop} (h : word i text = .error stop) :
    (∃ problem, stop = .fault (.ofFault (.input i problem))) ∨
      ∃ digits, stop = .digitLimit digits := by
  rcases reader?_cases hc text with ⟨value, -, hv⟩ | ⟨problem, hp⟩ | ⟨digits, hd⟩
  · rw [hv] at h
    cases h
  · rw [hp] at h
    cases h
    exact .inl ⟨problem, rfl⟩
  · rw [hd] at h
    cases h
    exact .inr ⟨digits, rfl⟩

theorem execute_raises {raised : Raised} (h : (m.execute i).machine.console.Raises raised) :
    m.console.Raises raised := by
  refine execute_console (P := fun c => c.Raises raised → m.console.Raises raised) ?_ ?_
    (fun _ _ _ => id) id h
  · intro _ c first later
    exact first (Console.readChar_raises true (.inr later))
  · intro c first later
    exact first (Console.readLine_raises (.inr later))

/-- Along a history the console raises nothing new. -/
theorem Reachable.raises {r : Registry Notes} {p : Program} {origin : Machine} {raised : Raised}
    (reachable : Reachable r p origin m) (h : m.console.Raises raised) :
    origin.console.Raises raised := by
  refine reachable.invariant (P := fun m => m.console.Raises raised → _) id ?_ ?_ h
  · intro m i hm hn hr
    exact hm (execute_raises (m := m.record i) hr)
  · intro m hm hr
    exact hm hr

/-! ## The faults of an instruction -/

/-- `FaultsWith m i fault`: on the machine `m` the instruction `i` itself may have the fault. -/
inductive FaultsWith (m : Machine) (i : Instruction) : Fault → Prop
  | inconsistent (h : ¬i.IsExecutable) : FaultsWith m i (.inconsistent i)
  | stackUnderflow (h : i.IsExecutable) (lack : m.stack.length < i.command.needed) :
      FaultsWith m i (.stackUnderflow i i.command.needed m.stack.length)
  | callStackUnderflow (is : i.Is .ret) (empty : m.calls = []) :
      FaultsWith m i (.callStackUnderflow i)
  | outOfBounds (value low high : Int) (reason : String) :
      FaultsWith m i (.outOfBounds i value low high reason)
  | input (problem : InputProblem) : FaultsWith m i (.input i problem)
  | unresolvedLabel {name : String} (taken : m.takenLabel? i = some name)
      (operand : i.operand = some (.label name none)) : FaultsWith m i (.unresolvedLabel i)

/-- Recording a step changes nothing that a fault is about. -/
theorem FaultsWith.of_record {fault : Fault} (h : FaultsWith (m.record i) i fault) :
    FaultsWith m i fault := by
  cases h with
  | inconsistent hn => exact .inconsistent hn
  | stackUnderflow hi lack => exact .stackUnderflow hi lack
  | callStackUnderflow is empty => exact .callStackUnderflow is empty
  | outOfBounds value low high reason => exact .outOfBounds value low high reason
  | input problem => exact .input problem
  | unresolvedLabel taken operand => exact .unresolvedLabel taken operand

/-- An instruction's own fault is blamed on it. -/
theorem FaultsWith.instruction?_eq {fault : Fault} (h : FaultsWith m i fault) :
    fault.instruction? = some i := by
  cases h <;> rfl

theorem FaultsWith.of_inconsistent {fault : Fault} (h : FaultsWith m i fault)
    (hname : fault.name = "InternalConsistencyError") : ¬i.IsExecutable := by
  cases h with
  | inconsistent hn => exact hn
  | _ => simp [Fault.name] at hname

theorem FaultsWith.of_unresolvedLabel {fault : Fault} (h : FaultsWith m i fault)
    (hname : fault.name = "UnresolvedLabelError") :
    ∃ name, m.takenLabel? i = some name ∧ i.operand = some (.label name none) := by
  cases h with
  | unresolvedLabel taken operand => exact ⟨_, taken, operand⟩
  | _ => simp [Fault.name] at hname

/-- A fault of an instruction is its own, of which the position is to be filled in, or the input
device raised it. -/
theorem execute_fault {error : RuntimeError} (h : (m.execute i).stop = some (.fault error)) :
    m.console.Raises (.runtime error) ∨ error.pointer = none ∧ FaultsWith m i error.fault := by
  have he := executes m i
  generalize m.execute i = e at he h
  cases he with
  | inconsistent hn =>
    cases h
    exact .inr ⟨rfl, .inconsistent hn⟩
  | underflow hi lack =>
    cases h
    exact .inr ⟨rfl, .stackUnderflow hi lack⟩
  | retUnderflow is stack =>
    cases h
    exact .inr ⟨rfl, .callStackUnderflow is stack⟩
  | unresolved is operand =>
    cases h
    exact .inr ⟨rfl, .unresolvedLabel (takenLabel?_of_transfer is operand) operand⟩
  | unresolvedIf family command operand stack holds =>
    cases h
    have taken := takenLabel?_of_condition family command operand stack holds
    exact .inr ⟨rfl, .unresolvedLabel taken operand⟩
  | copyOutside | slideNegative | storeOutside | retrieveOutside | outputOutside | outputSurrogate
  | readOutside =>
    cases h
    exact .inr ⟨rfl, .outOfBounds _ _ _ _⟩
  | @readFailed _ _ _ _ _ raised _ family command stack inside result =>
    cases raised with
    | runtime raised =>
      cases h
      exact .inl (reader?_raises command result (.inl rfl))
    | device notice =>
      cases h
      exact .inr ⟨rfl, .input _⟩
    | foreign notice | interrupt notice => cases h
  | readRefused family command stack inside result refused =>
    rcases reader?_refused command refused with ⟨problem, rfl⟩ | ⟨digits, rfl⟩
    · cases h
      exact .inr ⟨rfl, .input problem⟩
    · cases h
  | _ => cases h

/-- A fault of a step is that of the instruction that is next, or the input device raised it. -/
theorem step_fault {p : Program} {error : RuntimeError}
    (h : (m.step p).stop = some (.fault error)) :
    ∃ i, m.next p = .instruction i ∧
      ((∃ raised, m.console.Raises (.runtime raised) ∧ raised.fault = error.fault) ∨
        FaultsWith m i error.fault) := by
  rcases step_stop_cases h with ⟨-, hs⟩ | ⟨i, cause, hn, hs, he⟩
  · cases hs
  · refine ⟨i, hn, ?_⟩
    cases cause with
    | fault cause =>
      cases he
      rcases execute_fault hs with hr | ⟨-, hf⟩
      · exact .inl ⟨cause, hr, rfl⟩
      · exact .inr hf.of_record
    | _ => cases he

/-- No step of a decoded program is reported as inconsistent, unless the input device raises such an
error itself. -/
theorem step_not_inconsistent {file text : String} {encoding : Encoding} {p : Program}
    (parsed : Program.parse file encoding text = .ok p) (r : Registry Notes) (heapSize : Nat)
    (silent : Bool) (console : Console)
    (device : ∀ error, console.Raises (.runtime error) →
      error.fault.name ≠ "InternalConsistencyError")
    {m : Machine} (reachable : Reachable r p (start heapSize silent console) m) :
    ∀ error, (m.step p).stop = some (.fault error) →
      error.fault.name ≠ "InternalConsistencyError" := by
  intro error h hname
  obtain ⟨i, hn, ⟨raised, hr, hf⟩ | hf⟩ := step_fault h
  · rw [← hf] at hname
    exact device raised (reachable.raises hr) hname
  · have hw := Program.wellFormed_of_parse parsed
    have hi := (reachable.inBounds hw).isConsistent hw hn
    exact hf.of_inconsistent hname hi.isExecutable

/-- A program that reads a number from a device that fails: the read is reported, but not as an
inconsistent instruction. -/
theorem failed_read_not_inconsistent :
    ∃ p m error, Program.parse "read.stl" .stl "SSSLTLTT" = .ok p ∧
      Reachable (.empty : Registry Unit) p
        (start 1 false ⟨.scripted [.error (.device ⟨"OSError", "closed"⟩)] [], ""⟩) m ∧
      (m.step p).stop = some (.fault error) ∧ error.fault.name ≠ "InternalConsistencyError" := by
  have parsed : Program.parse "read.stl" .stl "SSSLTLTT" = .ok (.ofList
      [⟨.stack, .push, some (.number 0), some ⟨"read.stl", 1, 1⟩⟩,
        ⟨.io, .readNumber, none, some ⟨"read.stl", 1, 5⟩⟩]) := rfl
  refine ⟨_, _, _, parsed, .step .origin ⟨#[], ()⟩, rfl, ?_⟩
  refine step_not_inconsistent parsed (.empty : Registry Unit) 1 false
    ⟨.scripted [.error (.device ⟨"OSError", "closed"⟩)] [], ""⟩ ?_ (.step .origin ⟨#[], ()⟩) _ rfl
  rintro error (h | h)
  · simp at h
  · cases h

end Machine

end Whitespace
