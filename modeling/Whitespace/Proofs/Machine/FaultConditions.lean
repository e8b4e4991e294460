import Whitespace.Proofs.Machine.Endings
import Whitespace.Proofs.Machine.Likeness

/-!
# When a step faults

Under which conditions an instruction of a decoded program faults, for each name that a fault is
reported under, and what it is told with. The conditions overlap; which one counts is settled by
their order: a stack that is too short comes before a number out of bounds, and that before a
division by zero.

Results:
1. `Machine.execute_stop_cases`, `Machine.Fails.execute_stop`: what stops an instruction is a
   condition that it fails on or a read, and every condition stops it.
2. `Machine.step_named_iff`: a step raises the names of the conditions that its instruction fails
   on.
3. `Fault.message_of_lack`: the message of an underflow says what is needed and present.
4. `Machine.fault_conditions_exact`: the condition for each name, and what is told with it.
-/

namespace Whitespace

/-- `i.Breaches stack heapSize value high reason`: on this stack, with a heap of this size, the
instruction finds a value that is not allowed. The values allowed go from zero to `high`, but for
the code points that a reason is given for.

* `index`: the position of a copy, counted from the bottom of the stack.
* `count`: the count of a slide, which may be greater than the stack.
* `address`: the address of a store, a retrieve or a read.
* `code`, `surrogate`: the code point of an output. -/
inductive Instruction.Breaches (i : Instruction) (stack : List Int) (heapSize : Nat) :
    Int → Int → String → Prop
  | index {index : Int} (command : i.command = .copyNth) (operand : i.number? = some index)
      (outside : ¬(0 ≤ index ∧ index ≤ stack.length - 1)) :
      i.Breaches stack heapSize index (stack.length - 1) ""
  | count {count : Int} (command : i.command = .slide) (operand : i.number? = some count)
      (negative : count < 0) : i.Breaches stack heapSize count Word.maxValue ""
  | address {address : Int} (addresses : i.Addresses stack address)
      (outside : ¬(0 ≤ address ∧ address ≤ heapSize - 1)) :
      i.Breaches stack heapSize address (heapSize - 1) ""
  | code {code : Int} {rest : List Int} (command : i.command = .outputCharacter)
      (top : stack = code :: rest) (outside : ¬(0 ≤ code ∧ code ≤ 0x10FFFF)) :
      i.Breaches stack heapSize code 0x10FFFF ""
  | surrogate {code : Int} {rest : List Int} (command : i.command = .outputCharacter)
      (top : stack = code :: rest) (half : 0xD800 ≤ code ∧ code ≤ 0xDFFF) :
      i.Breaches stack heapSize code 0x10FFFF "surrogate code points cannot be written"

/-- What an underflow is told with: the stack it is about, how many values are needed there, and how
many there are. -/
def Fault.lack? : Fault → Option (String × Nat × Nat)
  | stackUnderflow _ needed present => some ("stack", needed, present)
  | callStackUnderflow _ => some ("call stack", 1, 0)
  | _ => none

theorem Fault.message_of_lack {fault : Fault} {i : Instruction} {what : String}
    {needed present : Nat} (lack : fault.lack? = some (what, needed, present))
    (blamed : fault.instruction? = some i) :
    fault.message = underflowMessage what i needed present := by
  cases fault with
  | stackUnderflow | callStackUnderflow =>
    cases lack
    cases blamed
    rfl
  | _ => cases lack

/-- The names under which the conditions of instructions are reported. -/
def Fault.conditionNames : List String :=
  ["StackUnderflowError", "BoundsViolationError", "ZeroDivisionError", "UnresolvedLabelError"]

namespace Machine

variable {m : Machine} {i : Instruction} {stop : Stop}

/-- `Fails m i stop`: the condition of a fault holds for the instruction on the machine, or it
divides by zero, and `stop` tells of that. -/
inductive Fails (m : Machine) (i : Instruction) : Stop → Prop
  | underflow (lack : m.stack.length < i.command.needed) :
      Fails m i (.fault (.ofFault (.stackUnderflow i i.command.needed m.stack.length)))
  | callUnderflow (command : i.command = .ret) (empty : m.calls = []) :
      Fails m i (.fault (.ofFault (.callStackUnderflow i)))
  | outOfBounds {value high : Int} {reason : String} (enough : i.command.needed ≤ m.stack.length)
      (breach : i.Breaches m.stack m.heap.size value high reason) :
      Fails m i (.fault (.ofFault (.outOfBounds i value 0 high reason)))
  | divisionByZero (divides : m.DividesByZero i) : Fails m i (.divisionByZero i)
  | unresolved {name : String} (taken : m.takenLabel? i = some name)
      (operand : i.operand = some (.label name none)) :
      Fails m i (.fault (.ofFault (.unresolvedLabel i)))

/-- The step raises an error of this name. -/
def Raises (m : Machine) (p : Program) (name : String) : Prop :=
  ∃ stop, (m.step p).stop = some stop ∧ stop.notice.name = name

/-- The instruction reads, and what it reads stops it: the device raises something, or the text is
no word. -/
def ReadStops (m : Machine) (i : Instruction) (stop : Stop) : Prop :=
  ∃ read word, i.command.reader? = some (read, word) ∧
    ((∃ raised, (read m.console).1 = .error raised ∧ stop = inputStop i raised) ∨
      ∃ text, word i text = .error stop)

/-- What the input device raises when the instruction reads is a failure of the device, or has none
of these names. -/
def DeviceRaisesNone (m : Machine) (i : Instruction) (names : List String) : Prop :=
  ∀ read word raised, i.command.reader? = some (read, word) →
    (read m.console).1 = .error raised →
    (∃ notice, raised = .device notice) ∨ raised.notice.name ∉ names

/-! ## Bounds -/

theorem fromBottom?_eq_none_iff {index : Int} :
    m.fromBottom? index = none ↔ ¬(0 ≤ index ∧ index ≤ m.stack.length - 1) := by
  unfold fromBottom?
  split
  · simp only [true_iff]
    omega
  · rw [List.getElem?_eq_none_iff, List.length_reverse]
    omega

theorem address?_eq_none_iff {h : Heap} {address : Int} :
    h.address? address = none ↔ ¬(0 ≤ address ∧ address ≤ h.size - 1) := by
  unfold Heap.address?
  split
  · simp only [reduceCtorEq, false_iff]
    omega
  · simp only [true_iff]
    omega

theorem isSurrogate_iff {code : Int} : isSurrogate code = true ↔ 0xD800 ≤ code ∧ code ≤ 0xDFFF := by
  simp [isSurrogate]

/-! ## What stops an instruction -/

theorem needed_le_of_addresses {stack : List Int} {address : Int} (h : i.Addresses stack address) :
    i.command.needed ≤ stack.length := by
  cases h with
  | store is => rw [is.1]; exact Nat.le_add_left 2 _
  | retrieve is => rw [is.1]; exact Nat.le_add_left 1 _
  | read is => rcases is with is | is <;> rw [is.1] <;> exact Nat.le_add_left 1 _

theorem fails_of_addresses {address : Int} (addresses : i.Addresses m.stack address)
    (outside : m.heap.address? address = none) :
    Fails m i (.fault (.ofFault (.outOfBounds i address 0 (m.heap.size - 1) ""))) :=
  .outOfBounds (needed_le_of_addresses addresses)
    (.address addresses (address?_eq_none_iff.mp outside))

/-- What stops an instruction is a condition that it fails on or a read. -/
theorem execute_stop_cases (consistent : i.IsConsistent) (h : (m.execute i).stop = some stop) :
    Fails m i stop ∨ m.ReadStops i stop := by
  have he := executes m i
  generalize m.execute i = e at he h
  cases he with
  | inconsistent hn => exact absurd consistent.isExecutable hn
  | underflow _ lack =>
    cases h
    exact .inl (.underflow lack)
  | retUnderflow is empty =>
    cases h
    exact .inl (.callUnderflow is.1 empty)
  | copyOutside is operand outside =>
    cases h
    have enough : i.command.needed ≤ m.stack.length := by simp [Command.needed, is.1]
    exact .inl (.outOfBounds enough (.index is.1 operand (fromBottom?_eq_none_iff.mp outside)))
  | slideNegative is operand stack negative =>
    cases h
    have enough : i.command.needed ≤ m.stack.length := by simp [Command.needed, is.1, stack]
    exact .inl (.outOfBounds enough (.count is.1 operand negative))
  | storeOutside is stack outside =>
    cases h
    exact .inl (fails_of_addresses (by rw [stack]; exact .store is) outside)
  | retrieveOutside is stack outside =>
    cases h
    exact .inl (fails_of_addresses (by rw [stack]; exact .retrieve is) outside)
  | readOutside family command stack outside =>
    cases h
    have is := Instruction.is_read family command
    exact .inl (fails_of_addresses (by rw [stack]; exact .read is) outside)
  | outputOutside is stack outside =>
    cases h
    have enough : i.command.needed ≤ m.stack.length := by simp [Command.needed, is.1, stack]
    refine .inl (.outOfBounds enough (.code is.1 stack ?_))
    rwa [not_and_or, not_le, not_le]
  | outputSurrogate is stack inside surrogate =>
    cases h
    have enough : i.command.needed ≤ m.stack.length := by simp [Command.needed, is.1, stack]
    exact .inl (.outOfBounds enough (.surrogate is.1 stack (isSurrogate_iff.mp surrogate)))
  | divisionByZero family command stack division =>
    cases h
    exact .inl (.divisionByZero ⟨family, division, _, _, stack⟩)
  | unresolved is operand =>
    cases h
    exact .inl (.unresolved (takenLabel?_of_transfer is operand) operand)
  | unresolvedIf family command operand stack holds =>
    cases h
    exact .inl (.unresolved (takenLabel?_of_condition family command operand stack holds) operand)
  | readFailed family command stack inside result =>
    cases h
    exact .inr ⟨_, _, command, .inl ⟨_, by rw [result], rfl⟩⟩
  | readRefused family command stack inside result refused =>
    cases h
    exact .inr ⟨_, _, command, .inr ⟨_, refused⟩⟩
  | _ => cases h

theorem breaches_stop {value high : Int} {reason : String} (consistent : i.IsConsistent)
    (enough : i.command.needed ≤ m.stack.length)
    (breach : i.Breaches m.stack m.heap.size value high reason) :
    (m.execute i).stop = some (.fault (.ofFault (.outOfBounds i value 0 high reason))) := by
  have is {c : Command} (command : i.command = c) : i.Is c := is_of_command consistent.1 command
  cases breach with
  | index command operand outside =>
    rw [(Executes.copyOutside (is command) operand (fromBottom?_eq_none_iff.mpr outside)).eq]
    rfl
  | count command operand negative =>
    rw [command] at enough
    obtain ⟨top, rest, stack⟩ := List.exists_cons_of_length_pos enough
    rw [(Executes.slideNegative (is command) operand stack negative).eq]
    rfl
  | address addresses outside =>
    rw [execute_of_addresses addresses (address?_eq_none_iff.mpr outside)]
    rfl
  | code command top outside =>
    rw [not_and_or, not_le, not_le] at outside
    rw [(Executes.outputOutside (is command) top outside).eq]
    rfl
  | surrogate command top half =>
    have inside : ¬(value < 0 ∨ maxCodePoint < value) := by
      unfold maxCodePoint
      omega
    rw [(Executes.outputSurrogate (is command) top inside (isSurrogate_iff.mpr half)).eq]
    rfl

/-- Every condition stops the instruction. -/
theorem Fails.execute_stop (h : Fails m i stop) (consistent : i.IsConsistent) :
    (m.execute i).stop = some stop := by
  cases h with
  | underflow lack =>
    rw [(Executes.underflow consistent.isExecutable lack).eq]
    rfl
  | callUnderflow command empty =>
    rw [(Executes.retUnderflow (is_of_command consistent.1 command) empty).eq]
    rfl
  | outOfBounds enough breach => exact breaches_stop consistent enough breach
  | divisionByZero divides =>
    obtain ⟨family, division, left, rest, stack⟩ := divides
    obtain ⟨operation, command⟩ : ∃ operation, operation? i.command = some operation := by
      rcases division with hc | hc <;> exact ⟨_, by rw [hc]; rfl⟩
    rw [(Executes.divisionByZero family command stack division).eq]
    rfl
  | unresolved taken operand =>
    rw [execute_taken taken operand]
    rfl

/-! ## Names -/

theorem Fails.of_stackUnderflow (h : Fails m i stop)
    (hname : stop.notice.name = "StackUnderflowError") :
    m.stack.length < i.command.needed ∧
        stop = .fault (.ofFault (.stackUnderflow i i.command.needed m.stack.length)) ∨
      (i.command = .ret ∧ m.calls = []) ∧ stop = .fault (.ofFault (.callStackUnderflow i)) := by
  cases h with
  | underflow lack => exact .inl ⟨lack, rfl⟩
  | callUnderflow command empty => exact .inr ⟨⟨command, empty⟩, rfl⟩
  | _ => simp [Stop.notice, RuntimeError.notice, RuntimeError.ofFault, Fault.name] at hname

theorem Fails.of_outOfBounds (h : Fails m i stop)
    (hname : stop.notice.name = "BoundsViolationError") :
    ∃ value high reason, i.Breaches m.stack m.heap.size value high reason ∧
      stop = .fault (.ofFault (.outOfBounds i value 0 high reason)) := by
  cases h with
  | outOfBounds _ breach => exact ⟨_, _, _, breach, rfl⟩
  | _ => simp [Stop.notice, RuntimeError.notice, RuntimeError.ofFault, Fault.name] at hname

theorem Fails.of_divisionByZero (h : Fails m i stop)
    (hname : stop.notice.name = "ZeroDivisionError") : m.DividesByZero i := by
  cases h with
  | divisionByZero divides => exact divides
  | _ => simp [Stop.notice, RuntimeError.notice, RuntimeError.ofFault, Fault.name] at hname

theorem Fails.of_unresolvedLabel (h : Fails m i stop)
    (hname : stop.notice.name = "UnresolvedLabelError") :
    ∃ name, m.takenLabel? i = some name ∧ i.operand = some (.label name none) := by
  cases h with
  | unresolved taken operand => exact ⟨_, taken, operand⟩
  | _ => simp [Stop.notice, RuntimeError.notice, RuntimeError.ofFault, Fault.name] at hname

theorem Fails.name_mem (h : Fails m i stop) : stop.notice.name ∈ Fault.conditionNames := by
  cases h <;> simp [Stop.notice, RuntimeError.notice, RuntimeError.ofFault, Fault.name,
    Fault.conditionNames]

theorem ReadStops.is_read (h : m.ReadStops i stop) :
    i.command = .readCharacter ∨ i.command = .readNumber := by
  obtain ⟨read, word, command, -⟩ := h
  cases hc : i.command <;> rw [hc] at command <;> cases command
  · exact .inl rfl
  · exact .inr rfl

/-- What stops a read has another name, unless the device gives it one of them. -/
theorem ReadStops.name_notMem (h : m.ReadStops i stop)
    (device : m.DeviceRaisesNone i Fault.conditionNames) :
    stop.notice.name ∉ Fault.conditionNames := by
  have hinput : "InputFaultError" ∉ Fault.conditionNames := by decide
  have hdigits : "ValueError" ∉ Fault.conditionNames := by decide
  obtain ⟨read, word, command, ⟨raised, hraised, rfl⟩ | ⟨text, refused⟩⟩ := h
  · cases raised with
    | device notice => exact hinput
    | runtime error | foreign notice | interrupt notice =>
      exact (device read word _ command hraised).resolve_left nofun
  · rcases reader?_refused command refused with ⟨problem, rfl⟩ | ⟨digits, rfl⟩
    · exact hinput
    · exact hdigits

/-! ## Steps -/

section

variable {p : Program} {name : String}

theorem Stop.name_atStep (pointer : Int) (step : Nat) (stop : Stop) :
    (stop.atStep pointer step).notice.name = stop.notice.name := by
  cases stop <;> rfl

theorem Fails.raises (h : Fails (m.record i) i stop) (next : m.next p = .instruction i)
    (consistent : i.IsConsistent) : m.Raises p stop.notice.name := by
  refine ⟨stop.atStep m.pointer m.executed, ?_, Stop.name_atStep ..⟩
  rw [step_eq_perform next]
  exact perform_stop_eq_some_iff.mpr ⟨stop, h.execute_stop consistent, rfl⟩

/-- An input fault comes from a read. -/
theorem is_read_of_raises (next : m.next p = .instruction i) (consistent : i.IsConsistent)
    (h : m.Raises p "InputFaultError") : i.command = .readCharacter ∨ i.command = .readNumber := by
  obtain ⟨stop, hstop, hname⟩ := h
  rw [step_eq_perform next] at hstop
  obtain ⟨cause, hcause, rfl⟩ := perform_stop_eq_some_iff.mp hstop
  rw [Stop.name_atStep] at hname
  rcases execute_stop_cases consistent hcause with fails | reads
  · exact absurd (hname ▸ fails.name_mem) (by decide)
  · exact reads.is_read

variable (next : m.next p = .instruction i) (consistent : i.IsConsistent)
  (device : m.DeviceRaisesNone i Fault.conditionNames)

include next consistent device

/-- An error of the name of a condition is one that the instruction fails on. -/
theorem exists_fails (h : (m.step p).stop = some stop)
    (hname : stop.notice.name ∈ Fault.conditionNames) :
    ∃ cause, Fails (m.record i) i cause ∧ cause.notice.name = stop.notice.name ∧
      stop = cause.atStep m.pointer m.executed := by
  rw [step_eq_perform next] at h
  obtain ⟨cause, hcause, rfl⟩ := perform_stop_eq_some_iff.mp h
  rw [Stop.name_atStep] at hname ⊢
  rcases execute_stop_cases consistent hcause with fails | reads
  · exact ⟨cause, fails, rfl, rfl⟩
  · exact absurd hname (reads.name_notMem device)

/-- Which names a step raises are those of the conditions that its instruction fails on. -/
theorem step_named_iff (hname : name ∈ Fault.conditionNames) :
    m.Raises p name ↔ ∃ cause, Fails (m.record i) i cause ∧ cause.notice.name = name := by
  constructor
  · rintro ⟨stop, hstop, rfl⟩
    obtain ⟨cause, fails, hcause, -⟩ := exists_fails next consistent device hstop hname
    exact ⟨cause, fails, hcause⟩
  · rintro ⟨cause, fails, rfl⟩
    exact fails.raises next consistent

theorem raises_stackUnderflow_iff :
    m.Raises p "StackUnderflowError" ↔
      m.stack.length < i.command.needed ∨ i.command = .ret ∧ m.calls = [] := by
  rw [step_named_iff next consistent device (by decide)]
  constructor
  · rintro ⟨cause, fails, hname⟩
    exact (fails.of_stackUnderflow hname).imp And.left And.left
  · rintro (lack | ⟨command, empty⟩)
    · exact ⟨_, .underflow lack, rfl⟩
    · exact ⟨_, .callUnderflow command empty, rfl⟩

theorem raises_outOfBounds_iff (enough : i.command.needed ≤ m.stack.length) :
    m.Raises p "BoundsViolationError" ↔
      ∃ value high reason, i.Breaches m.stack m.heap.size value high reason := by
  rw [step_named_iff next consistent device (by decide)]
  constructor
  · rintro ⟨cause, fails, hname⟩
    obtain ⟨value, high, reason, breach, -⟩ := fails.of_outOfBounds hname
    exact ⟨value, high, reason, breach⟩
  · rintro ⟨value, high, reason, breach⟩
    exact ⟨_, .outOfBounds enough breach, rfl⟩

theorem raises_divisionByZero_iff (enough : i.command.needed ≤ m.stack.length) :
    m.Raises p "ZeroDivisionError" ↔
      (i.command = .divide ∨ i.command = .modulo) ∧ m.stack.head? = some 0 := by
  rw [step_named_iff next consistent device (by decide)]
  constructor
  · rintro ⟨cause, fails, hname⟩
    obtain ⟨-, division, left, rest, stack⟩ := fails.of_divisionByZero hname
    have stack : m.stack = 0 :: left :: rest := stack
    exact ⟨division, by rw [stack]; rfl⟩
  · rintro ⟨division, top⟩
    have family : i.family = .arithmetic := by
      rcases division with hc | hc <;> rw [consistent.1, hc] <;> rfl
    have two : i.command.needed = 2 := by rcases division with hc | hc <;> rw [hc] <;> rfl
    obtain ⟨rest, stack⟩ := List.head?_eq_some_iff.mp top
    rw [two, stack, List.length_cons] at enough
    obtain ⟨left, rest, rfl⟩ := List.exists_cons_of_length_pos (Nat.le_of_succ_le_succ enough)
    exact ⟨_, .divisionByZero ⟨family, division, left, rest, stack⟩, rfl⟩

theorem raises_unresolvedLabel_iff :
    m.Raises p "UnresolvedLabelError" ↔
      ∃ name, m.takenLabel? i = some name ∧ i.operand = some (.label name none) := by
  rw [step_named_iff next consistent device (by decide)]
  constructor
  · rintro ⟨cause, fails, hname⟩
    exact fails.of_unresolvedLabel hname
  · rintro ⟨name, taken, operand⟩
    exact ⟨_, .unresolved taken operand, rfl⟩

/-- An underflow is told with the stack that is too short, and with how short it is. -/
theorem stackUnderflow_tells (h : (m.step p).stop = some stop)
    (hname : stop.notice.name = "StackUnderflowError") :
    ∃ error what needed present, stop = .fault error ∧ error.fault.instruction? = some i ∧
      error.fault.lack? = some (what, needed, present) ∧ present < needed ∧
      (what = "stack" ∧ needed = i.command.needed ∧ present = m.stack.length ∨
        what = "call stack" ∧ needed = 1 ∧ present = m.calls.length) := by
  obtain ⟨cause, fails, hcause, rfl⟩ :=
    exists_fails next consistent device h (by rw [hname]; decide)
  rcases fails.of_stackUnderflow (hcause.trans hname) with ⟨lack, rfl⟩ | ⟨⟨-, empty⟩, rfl⟩
  · exact ⟨_, _, _, _, rfl, rfl, rfl, lack, .inl ⟨rfl, rfl, rfl⟩⟩
  · have empty : m.calls = [] := empty
    exact ⟨_, _, _, _, rfl, rfl, rfl, Nat.one_pos, .inr ⟨rfl, rfl, by rw [empty]; rfl⟩⟩

/-- A number out of bounds is told with the bounds that it breaches. -/
theorem outOfBounds_tells (h : (m.step p).stop = some stop)
    (hname : stop.notice.name = "BoundsViolationError") :
    ∃ error value high reason, stop = .fault error ∧
      error.fault = .outOfBounds i value 0 high reason ∧
      i.Breaches m.stack m.heap.size value high reason := by
  obtain ⟨cause, fails, hcause, rfl⟩ :=
    exists_fails next consistent device h (by rw [hname]; decide)
  obtain ⟨value, high, reason, breach, rfl⟩ := fails.of_outOfBounds (hcause.trans hname)
  exact ⟨_, value, high, reason, rfl, rfl, breach⟩

/-- Faults are exact. Let the next instruction have the family and the operand of its command, and
let the device raise none of the errors that instructions have. The step is an underflow exactly if
the stack has fewer values than the command needs, or if there is no call to return from. With
enough values, it is out of bounds, divides by zero or misses a label exactly under the condition
for that. An input fault comes from a read. An underflow tells how many values are needed and
present, which are too few, and a number out of bounds comes with the bounds that it breaches. -/
theorem fault_conditions_exact :
    (m.Raises p "StackUnderflowError" ↔
      m.stack.length < i.command.needed ∨ i.command = .ret ∧ m.calls = []) ∧
    (i.command.needed ≤ m.stack.length →
      (m.Raises p "BoundsViolationError" ↔
        ∃ value high reason, i.Breaches m.stack m.heap.size value high reason) ∧
      (m.Raises p "ZeroDivisionError" ↔
        (i.command = .divide ∨ i.command = .modulo) ∧ m.stack.head? = some 0) ∧
      (m.Raises p "UnresolvedLabelError" ↔
        ∃ name, m.takenLabel? i = some name ∧ i.operand = some (.label name none))) ∧
    (m.Raises p "InputFaultError" → i.command = .readCharacter ∨ i.command = .readNumber) ∧
    (∀ stop, (m.step p).stop = some stop → stop.notice.name = "StackUnderflowError" →
      ∃ error what needed present, stop = .fault error ∧ error.fault.instruction? = some i ∧
        error.fault.lack? = some (what, needed, present) ∧ present < needed ∧
        (what = "stack" ∧ needed = i.command.needed ∧ present = m.stack.length ∨
          what = "call stack" ∧ needed = 1 ∧ present = m.calls.length)) ∧
    ∀ stop, (m.step p).stop = some stop → stop.notice.name = "BoundsViolationError" →
      ∃ error value high reason, stop = .fault error ∧
        error.fault = .outOfBounds i value 0 high reason ∧
        i.Breaches m.stack m.heap.size value high reason := by
  refine ⟨raises_stackUnderflow_iff next consistent device, fun enough => ⟨?_, ?_, ?_⟩,
    is_read_of_raises next consistent, fun _ h hname => ?_, fun _ h hname => ?_⟩
  · exact raises_outOfBounds_iff next consistent device enough
  · exact raises_divisionByZero_iff next consistent device enough
  · exact raises_unresolvedLabel_iff next consistent device
  · exact stackUnderflow_tells next consistent device h hname
  · exact outOfBounds_tells next consistent device h hname

end

/-- A machine with a single cell, an address behind it on the stack, and a device that fails. -/
def addressBehindHeap : Machine :=
  { start 1 false ⟨.scripted [.error (.device ⟨"OSError", "closed"⟩)] [], ""⟩ with stack := [5] }

/-- A read of a number there: the address comes before the device. -/
theorem read_behind_heap_out_of_bounds :
    addressBehindHeap.Raises (.ofList [⟨.io, .readNumber, none, none⟩]) "BoundsViolationError" := by
  have next : addressBehindHeap.next (.ofList [⟨.io, .readNumber, none, none⟩]) =
      .instruction ⟨.io, .readNumber, none, none⟩ := rfl
  have device : addressBehindHeap.DeviceRaisesNone ⟨.io, .readNumber, none, none⟩
      Fault.conditionNames := by
    rintro read word raised ⟨⟩ ⟨⟩
    exact .inl ⟨_, rfl⟩
  obtain ⟨-, given, -⟩ := fault_conditions_exact next (by decide) device
  exact (given (by decide)).1.mpr ⟨5, 0, "", .address (.read (.inr ⟨rfl, rfl⟩)) (by decide)⟩

end Machine

end Whitespace
