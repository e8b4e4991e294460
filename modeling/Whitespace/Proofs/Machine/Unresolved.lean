import Whitespace.Proofs.Machine.Transfer

/-!
# Machines without targets

What is left of instructions, faults and machines when the targets of labels are forgotten. An
instruction that does not transfer control has the same effect with and without its target.

Results:
1. `Machine.execute_unresolved`: executing an instruction that follows no label needs no target.
-/

namespace Whitespace

/-! ## Forgetting targets -/

/-- The operand without the target of its label. -/
def Operand.unresolved : Operand → Operand
  | number value => .number value
  | label name _ => .label name none

def Instruction.unresolved (i : Instruction) : Instruction :=
  { i with operand := i.operand.map Operand.unresolved }

def Fault.unresolved : Fault → Fault
  | inconsistent i => .inconsistent i.unresolved
  | stackUnderflow i needed present => .stackUnderflow i.unresolved needed present
  | callStackUnderflow i => .callStackUnderflow i.unresolved
  | outOfBounds i value low high reason => .outOfBounds i.unresolved value low high reason
  | missingTermination last => .missingTermination (last.map Instruction.unresolved)
  | input i problem => .input i.unresolved problem
  | unresolvedLabel i => .unresolvedLabel i.unresolved
  | stepRule i notice => .stepRule i.unresolved notice
  | eventHook event last notice => .eventHook event (last.map Instruction.unresolved) notice
  | reported notice => .reported notice

def Stop.unresolved : Stop → Stop
  | fault error => .fault { error with fault := error.fault.unresolved }
  | divisionByZero i => .divisionByZero i.unresolved
  | stop => stop

def LogEntry.unresolved (entry : LogEntry) : LogEntry :=
  { entry with instruction := entry.instruction.unresolved }

def Machine.unresolved (m : Machine) : Machine :=
  { m with last := m.last.map Instruction.unresolved, log := m.log.map LogEntry.unresolved }

def Effect.unresolved (e : Effect) : Effect :=
  ⟨e.machine.unresolved, e.stop.map Stop.unresolved⟩

namespace Instruction

@[simp] theorem number?_unresolved (i : Instruction) : i.unresolved.number? = i.number? := by
  rcases i with ⟨family, command, _ | ⟨value⟩ | ⟨name, target⟩, location⟩ <;> rfl

@[simp] theorem labelName?_unresolved (i : Instruction) :
    i.unresolved.labelName? = i.labelName? := by
  rcases i with ⟨family, command, _ | ⟨value⟩ | ⟨name, target⟩, location⟩ <;> rfl

@[simp] theorem unresolved_unresolved (i : Instruction) :
    i.unresolved.unresolved = i.unresolved := by
  rcases i with ⟨family, command, _ | ⟨value⟩ | ⟨name, target⟩, location⟩ <;> rfl

@[simp] theorem unresolved_comp_unresolved : unresolved ∘ unresolved = unresolved :=
  funext unresolved_unresolved

theorem isExecutable_unresolved {i : Instruction} :
    i.unresolved.IsExecutable ↔ i.IsExecutable := by
  have hkind : i.unresolved.operand.map Operand.kind = i.operand.map Operand.kind := by
    rcases i with ⟨family, command, _ | ⟨value⟩ | ⟨name, target⟩, location⟩ <;> rfl
  unfold IsExecutable
  rw [hkind]
  rfl

end Instruction

@[simp] theorem Fault.unresolved_unresolved (fault : Fault) :
    fault.unresolved.unresolved = fault.unresolved := by
  cases fault <;> simp [Fault.unresolved]

@[simp] theorem Stop.unresolved_unresolved (stop : Stop) :
    stop.unresolved.unresolved = stop.unresolved := by
  cases stop <;> simp [Stop.unresolved]

@[simp] theorem LogEntry.unresolved_comp_unresolved :
    LogEntry.unresolved ∘ LogEntry.unresolved = LogEntry.unresolved := by
  funext entry
  simp [LogEntry.unresolved]

@[simp] theorem Machine.unresolved_unresolved (m : Machine) :
    m.unresolved.unresolved = m.unresolved := by
  simp [Machine.unresolved]

namespace Effect

@[simp] theorem unresolved_completed (m : Machine) :
    (completed m).unresolved = completed m.unresolved :=
  rfl

@[simp] theorem unresolved_stopped (m : Machine) (stop : Stop) :
    (stopped m stop).unresolved = stopped m.unresolved stop.unresolved :=
  rfl

@[simp] theorem unresolved_fault (m : Machine) (fault : Fault) :
    (Effect.fault m fault).unresolved = Effect.fault m.unresolved fault.unresolved :=
  rfl

end Effect

namespace Machine

section

variable {m : Machine} {i : Instruction}

theorem reader?_unresolved {c : Command} {read : Console → Except Raised String × Console}
    {word : Instruction → String → Except Stop Int} (hc : c.reader? = some (read, word))
    (i : Instruction) (text : String) :
    word i.unresolved text = (word i text).mapError Stop.unresolved := by
  rcases reader?_cases hc text with ⟨value, -, h⟩ | ⟨problem, h⟩ | ⟨digits, h⟩ <;>
    rw [h, h] <;> rfl

theorem output_unresolved (m : Machine) (text : String) :
    (m.unresolved.output text).unresolved = (m.output text).unresolved := by
  unfold output
  show (if m.silent then m.unresolved else _).unresolved = _
  split
  · exact m.unresolved_unresolved
  · simp [Machine.unresolved]

theorem badAddress_unresolved (m : Machine) (i : Instruction) (address : Int) :
    (m.unresolved.badAddress i.unresolved address).unresolved =
      (m.badAddress i address).unresolved := by
  simp only [badAddress, Effect.unresolved_fault, Fault.unresolved, unresolved_unresolved,
    Instruction.unresolved_unresolved]
  rfl

theorem inputStop_unresolved (i : Instruction) (raised : Raised) :
    (inputStop i.unresolved raised).unresolved = (inputStop i raised).unresolved := by
  cases raised with
  | device notice =>
    simp only [inputStop, Stop.unresolved, Fault.unresolved, Instruction.unresolved_unresolved]
  | runtime error => rfl
  | foreign notice | interrupt notice => rfl

/-- An instruction that follows no label has the same effect without its target. -/
theorem execute_unresolved (h : m.takenLabel? i = none) :
    (m.unresolved.execute i.unresolved).unresolved = (m.execute i).unresolved := by
  have hnumber := i.number?_unresolved
  have hlabel := i.labelName?_unresolved
  have hexecutable := i.isExecutable_unresolved
  have he := executes m i
  generalize m.execute i = e at he ⊢
  -- The rule that was followed is followed without the target, too.
  suffices hs : ∃ e', Executes m.unresolved i.unresolved e' ∧ e'.unresolved = e.unresolved by
    obtain ⟨e', hr, he'⟩ := hs
    rw [hr.eq, he']
  cases he with
  | inconsistent hn =>
    exact ⟨_, .inconsistent (mt hexecutable.mp hn), by simp [Fault.unresolved]⟩
  | underflow hi lack =>
    refine ⟨_, .underflow (hexecutable.mpr hi) lack, ?_⟩
    simp only [underflow, Effect.unresolved_fault, Fault.unresolved, unresolved_unresolved,
      Instruction.unresolved_unresolved]
    rfl
  | push is operand =>
    exact ⟨_, .push is (hnumber.trans operand), by simp [Machine.unresolved, push]⟩
  | duplicate is stack => exact ⟨_, .duplicate is stack, by simp [Machine.unresolved, push]⟩
  | copyNth is operand inside =>
    exact ⟨_, .copyNth is (hnumber.trans operand) inside, by simp [Machine.unresolved, push]⟩
  | copyOutside is operand outside =>
    refine ⟨_, .copyOutside is (hnumber.trans operand) outside, ?_⟩
    simp [Fault.unresolved, Machine.unresolved]
  | swap is stack => exact ⟨_, .swap is stack, by simp [Machine.unresolved]⟩
  | discard is stack => exact ⟨_, .discard is stack, by simp [Machine.unresolved]⟩
  | slide is operand stack positive =>
    exact ⟨_, .slide is (hnumber.trans operand) stack positive, by simp [Machine.unresolved]⟩
  | slideNegative is operand stack negative =>
    refine ⟨_, .slideNegative is (hnumber.trans operand) stack negative, ?_⟩
    simp [Fault.unresolved]
  | arithmetic family command stack defined =>
    exact ⟨_, .arithmetic family command stack defined, by simp [Machine.unresolved]⟩
  | divisionByZero family command stack division =>
    exact ⟨_, .divisionByZero family command stack division, by simp [Stop.unresolved]⟩
  | store is stack inside => exact ⟨_, .store is stack inside, by simp [Machine.unresolved]⟩
  | storeOutside is stack outside =>
    exact ⟨_, .storeOutside is stack outside, badAddress_unresolved m i _⟩
  | retrieve is stack inside => exact ⟨_, .retrieve is stack inside, by simp [Machine.unresolved]⟩
  | retrieveOutside is stack outside =>
    exact ⟨_, .retrieveOutside is stack outside, badAddress_unresolved m i _⟩
  | mark is label => exact ⟨_, .mark is (hlabel.trans label), by simp⟩
  -- The next five follow a label.
  | call is operand => cases h.symm.trans (takenLabel?_of_transfer (.inl is) operand)
  | jump is operand => cases h.symm.trans (takenLabel?_of_transfer (.inr is) operand)
  | unresolved is operand => cases h.symm.trans (takenLabel?_of_transfer is operand)
  | jumpIf family command operand stack holds =>
    cases h.symm.trans (takenLabel?_of_condition family command operand stack holds)
  | unresolvedIf family command operand stack holds =>
    cases h.symm.trans (takenLabel?_of_condition family command operand stack holds)
  | skip family command label stack fails =>
    exact ⟨_, .skip family command (hlabel.trans label) stack fails, by simp [Machine.unresolved]⟩
  | ret is stack => exact ⟨_, .ret is stack, by simp [Machine.unresolved]⟩
  | retUnderflow is stack => exact ⟨_, .retUnderflow is stack, by simp [Fault.unresolved]⟩
  | exit is => exact ⟨_, .exit is, by simp [Machine.unresolved]⟩
  | @outputCharacter code rest is stack inside scalar =>
    refine ⟨_, .outputCharacter is stack inside scalar, ?_⟩
    exact congrArg Effect.completed (output_unresolved { m with stack := rest } _)
  | outputOutside is stack outside =>
    exact ⟨_, .outputOutside is stack outside, by simp [Fault.unresolved]⟩
  | outputSurrogate is stack inside surrogate =>
    exact ⟨_, .outputSurrogate is stack inside surrogate, by simp [Fault.unresolved]⟩
  | @outputNumber number rest is stack =>
    refine ⟨_, .outputNumber is stack, ?_⟩
    exact congrArg Effect.completed (output_unresolved { m with stack := rest } _)
  | readOutside family command stack outside =>
    exact ⟨_, .readOutside family command stack outside, badAddress_unresolved m i _⟩
  | readFailed family command stack inside result =>
    refine ⟨_, .readFailed family command stack inside result, ?_⟩
    simp [Machine.unresolved, inputStop_unresolved]
  | readRefused family command stack inside result refused =>
    have hw := (reader?_unresolved command i _).trans (congrArg (Except.mapError _) refused)
    refine ⟨_, .readRefused family command stack inside result hw, ?_⟩
    simp [Machine.unresolved]
  | read family command stack inside result accepted =>
    have hw := (reader?_unresolved command i _).trans (congrArg (Except.mapError _) accepted)
    refine ⟨_, .read family command stack inside result hw, ?_⟩
    simp [Machine.unresolved]

end

end Machine

end Whitespace
