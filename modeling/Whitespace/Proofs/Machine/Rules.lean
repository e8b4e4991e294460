import Whitespace.Machine.Execute

/-!
# Rules of execution

What executing an instruction leads to, one rule for each command and way to fail. The rules say
once what an instruction can do; invariants and simulations are case splits over them.

Results:
1. `Machine.executes`: every effect is that of a rule.
2. `Machine.execute_iff`: and every rule is an effect.
3. `Machine.step_stop_cases`: what stops a step has stopped an instruction.
-/

namespace Whitespace

/-- The number of values that a command takes from the operand stack or looks at on it. -/
def Command.needed : Command → Nat
  | .duplicate | .discard | .slide | .retrieve | .jumpIfZero | .jumpIfNegative
  | .outputCharacter | .outputNumber | .readCharacter | .readNumber => 1
  | .swap | .add | .subtract | .multiply | .divide | .modulo | .store => 2
  | .push | .copyNth | .mark | .call | .jump | .ret | .exit => 0

theorem Command.needed_le_two (c : Command) : c.needed ≤ 2 := by
  cases c <;> decide

def Command.condition? : Command → Option (Int → Bool)
  | .jumpIfZero => some fun value => value = 0
  | .jumpIfNegative => some fun value => value < 0
  | _ => none

/-- How a command reads: what it takes from the console, and the word that this denotes. -/
def Command.reader? : Command →
    Option ((Console → Except Raised String × Console) × (Instruction → String → Except Stop Int))
  | .readCharacter => some (fun console => console.readChar, Machine.readCode)
  | .readNumber => some (Console.readLine, Machine.readWord)
  | _ => none

namespace Instruction

/-- The instruction is a command in the family of that command. -/
def Is (i : Instruction) (command : Command) : Prop :=
  i.command = command ∧ i.family = command.family

/-- The family of the instruction knows its command, and the operand is of the kind that the command
asks for. An operand that is not asked for does not matter. -/
def IsExecutable (i : Instruction) : Prop :=
  i.family = i.command.family ∧
    ∀ kind, i.command.operandKind? = some kind → i.operand.map Operand.kind = some kind

theorem IsConsistent.isExecutable {i : Instruction} (h : i.IsConsistent) : i.IsExecutable :=
  ⟨h.1, fun _ hk => h.2.trans hk⟩

theorem number?_isSome {i : Instruction} :
    i.number?.isSome = true ↔ i.operand.map Operand.kind = some .number := by
  unfold number?
  cases i.operand with
  | none => simp
  | some operand => cases operand <;> simp [Operand.kind]

theorem labelName?_isSome {i : Instruction} :
    i.labelName?.isSome = true ↔ i.operand.map Operand.kind = some .label := by
  unfold labelName?
  cases i.operand with
  | none => simp
  | some operand => cases operand <;> simp [Operand.kind]

end Instruction

namespace Effect

@[simp] theorem completed_machine (m : Machine) : (completed m).machine = m := rfl

@[simp] theorem completed_stop (m : Machine) : (completed m).stop = none := rfl

@[simp] theorem stopped_machine (m : Machine) (stop : Stop) : (stopped m stop).machine = m := rfl

@[simp] theorem stopped_stop (m : Machine) (stop : Stop) : (stopped m stop).stop = some stop := rfl

@[simp] theorem fault_machine (m : Machine) (fault : Fault) : (Effect.fault m fault).machine = m :=
  rfl

@[simp] theorem fault_stop (m : Machine) (fault : Fault) :
    (Effect.fault m fault).stop = some (.fault (.ofFault fault)) :=
  rfl

end Effect

namespace Machine

/-- An output changes nothing but the console. -/
theorem output_eq (m : Machine) (text : String) :
    m.output text = { m with console := (m.output text).console } := by
  unfold output
  split <;> rfl

/-- `Executes m i e`: executing the instruction `i` on the machine `m` has the effect `e`. -/
inductive Executes (m : Machine) (i : Instruction) : Effect → Prop
  | inconsistent (h : ¬i.IsExecutable) : Executes m i (.fault m (.inconsistent i))
  | underflow (h : i.IsExecutable) (lack : m.stack.length < i.command.needed) :
      Executes m i (m.underflow i i.command.needed)
  | push {value : Int} (is : i.Is .push) (operand : i.number? = some value) :
      Executes m i (.completed (m.push value))
  | duplicate {top : Int} {rest : List Int} (is : i.Is .duplicate) (stack : m.stack = top :: rest) :
      Executes m i (.completed (m.push top))
  | copyNth {index value : Int} (is : i.Is .copyNth) (operand : i.number? = some index)
      (inside : m.fromBottom? index = some value) : Executes m i (.completed (m.push value))
  | copyOutside {index : Int} (is : i.Is .copyNth) (operand : i.number? = some index)
      (outside : m.fromBottom? index = none) :
      Executes m i (.fault m (.outOfBounds i index 0 (m.stack.length - 1) ""))
  | swap {first second : Int} {rest : List Int} (is : i.Is .swap)
      (stack : m.stack = first :: second :: rest) :
      Executes m i (.completed { m with stack := second :: first :: rest })
  | discard {top : Int} {rest : List Int} (is : i.Is .discard) (stack : m.stack = top :: rest) :
      Executes m i (.completed { m with stack := rest })
  | slide {count top : Int} {rest : List Int} (is : i.Is .slide) (operand : i.number? = some count)
      (stack : m.stack = top :: rest) (positive : ¬count < 0) :
      Executes m i (.completed { m with stack := top :: rest.drop count.toNat })
  | slideNegative {count top : Int} {rest : List Int} (is : i.Is .slide)
      (operand : i.number? = some count) (stack : m.stack = top :: rest) (negative : count < 0) :
      Executes m i (.fault m (.outOfBounds i count 0 Word.maxValue ""))
  | arithmetic {operation : Int → Int → Int} {right left : Int} {rest : List Int}
      (family : i.family = .arithmetic) (command : operation? i.command = some operation)
      (stack : m.stack = right :: left :: rest)
      (defined : ¬(right = 0 ∧ (i.command = .divide ∨ i.command = .modulo))) :
      Executes m i (.completed { m with stack := operation left right :: rest })
  | divisionByZero {operation : Int → Int → Int} {left : Int} {rest : List Int}
      (family : i.family = .arithmetic) (command : operation? i.command = some operation)
      (stack : m.stack = 0 :: left :: rest) (division : i.command = .divide ∨ i.command = .modulo) :
      Executes m i (.stopped m (.divisionByZero i))
  | store {value address : Int} {rest : List Int} {cell : Nat} (is : i.Is .store)
      (stack : m.stack = value :: address :: rest) (inside : m.heap.address? address = some cell) :
      Executes m i (.completed { m with stack := rest, heap := m.heap.write cell value })
  | storeOutside {value address : Int} {rest : List Int} (is : i.Is .store)
      (stack : m.stack = value :: address :: rest) (outside : m.heap.address? address = none) :
      Executes m i (m.badAddress i address)
  | retrieve {address : Int} {rest : List Int} {cell : Nat} (is : i.Is .retrieve)
      (stack : m.stack = address :: rest) (inside : m.heap.address? address = some cell) :
      Executes m i (.completed { m with stack := m.heap.read cell :: rest })
  | retrieveOutside {address : Int} {rest : List Int} (is : i.Is .retrieve)
      (stack : m.stack = address :: rest) (outside : m.heap.address? address = none) :
      Executes m i (m.badAddress i address)
  | mark {name : String} (is : i.Is .mark) (label : i.labelName? = some name) :
      Executes m i (.completed m)
  | call {name : String} {target : Int} (is : i.Is .call)
      (operand : i.operand = some (.label name (some target))) :
      Executes m i (.completed { m with calls := m.pointer :: m.calls, pointer := target })
  | jump {name : String} {target : Int} (is : i.Is .jump)
      (operand : i.operand = some (.label name (some target))) :
      Executes m i (.completed { m with pointer := target })
  | unresolved {name : String} (is : i.Is .call ∨ i.Is .jump)
      (operand : i.operand = some (.label name none)) : Executes m i (.fault m (.unresolvedLabel i))
  | jumpIf {condition : Int → Bool} {name : String} {target value : Int} {rest : List Int}
      (family : i.family = .flow) (command : i.command.condition? = some condition)
      (operand : i.operand = some (.label name (some target))) (stack : m.stack = value :: rest)
      (holds : condition value = true) :
      Executes m i (.completed { m with stack := rest, pointer := target })
  | unresolvedIf {condition : Int → Bool} {name : String} {value : Int} {rest : List Int}
      (family : i.family = .flow) (command : i.command.condition? = some condition)
      (operand : i.operand = some (.label name none)) (stack : m.stack = value :: rest)
      (holds : condition value = true) :
      Executes m i (.fault { m with stack := rest } (.unresolvedLabel i))
  | skip {condition : Int → Bool} {name : String} {value : Int} {rest : List Int}
      (family : i.family = .flow) (command : i.command.condition? = some condition)
      (label : i.labelName? = some name) (stack : m.stack = value :: rest)
      (fails : condition value = false) : Executes m i (.completed { m with stack := rest })
  | ret {caller : Int} {calls : List Int} (is : i.Is .ret) (stack : m.calls = caller :: calls) :
      Executes m i (.completed { m with calls := calls, pointer := caller })
  | retUnderflow (is : i.Is .ret) (stack : m.calls = []) :
      Executes m i (.fault m (.callStackUnderflow i))
  | exit (is : i.Is .exit) : Executes m i (.completed { m with done := true })
  | outputCharacter {code : Int} {rest : List Int} (is : i.Is .outputCharacter)
      (stack : m.stack = code :: rest) (inside : ¬(code < 0 ∨ maxCodePoint < code))
      (scalar : isSurrogate code = false) :
      Executes m i (.completed
        ({ m with stack := rest }.output (String.singleton (Char.ofNat code.toNat))))
  | outputOutside {code : Int} {rest : List Int} (is : i.Is .outputCharacter)
      (stack : m.stack = code :: rest) (outside : code < 0 ∨ maxCodePoint < code) :
      Executes m i (.fault m (.outOfBounds i code 0 maxCodePoint ""))
  | outputSurrogate {code : Int} {rest : List Int} (is : i.Is .outputCharacter)
      (stack : m.stack = code :: rest) (inside : ¬(code < 0 ∨ maxCodePoint < code))
      (surrogate : isSurrogate code = true) :
      Executes m i
        (.fault m (.outOfBounds i code 0 maxCodePoint "surrogate code points cannot be written"))
  | outputNumber {number : Int} {rest : List Int} (is : i.Is .outputNumber)
      (stack : m.stack = number :: rest) :
      Executes m i (.completed ({ m with stack := rest }.output (Decimal.ofInt number)))
  | readOutside {read : Console → Except Raised String × Console}
      {word : Instruction → String → Except Stop Int} {address : Int} {rest : List Int}
      (family : i.family = .io) (command : i.command.reader? = some (read, word))
      (stack : m.stack = address :: rest) (outside : m.heap.address? address = none) :
      Executes m i (m.badAddress i address)
  | readFailed {read : Console → Except Raised String × Console}
      {word : Instruction → String → Except Stop Int} {address : Int} {rest : List Int} {cell : Nat}
      {raised : Raised} {console : Console}
      (family : i.family = .io) (command : i.command.reader? = some (read, word))
      (stack : m.stack = address :: rest) (inside : m.heap.address? address = some cell)
      (result : read m.console = (.error raised, console)) :
      Executes m i (.stopped { m with stack := rest, console := console } (inputStop i raised))
  | readRefused {read : Console → Except Raised String × Console}
      {word : Instruction → String → Except Stop Int} {address : Int} {rest : List Int} {cell : Nat}
      {text : String} {console : Console} {stop : Stop}
      (family : i.family = .io) (command : i.command.reader? = some (read, word))
      (stack : m.stack = address :: rest) (inside : m.heap.address? address = some cell)
      (result : read m.console = (.ok text, console)) (refused : word i text = .error stop) :
      Executes m i (.stopped { m with stack := rest, console := console } stop)
  | read {read : Console → Except Raised String × Console}
      {word : Instruction → String → Except Stop Int} {address : Int} {rest : List Int} {cell : Nat}
      {text : String} {console : Console} {value : Int}
      (family : i.family = .io) (command : i.command.reader? = some (read, word))
      (stack : m.stack = address :: rest) (inside : m.heap.address? address = some cell)
      (result : read m.console = (.ok text, console)) (accepted : word i text = .ok value) :
      Executes m i (.completed
        { m with stack := rest, console := console, heap := m.heap.write cell value })

/-! ## Reading -/

/-- A line that is a number, trimmed, is judged by its digits and then by its value. -/
theorem readWord_of_numeral {line : String} {numeral : Decimal.Numeral}
    (h : Decimal.Numeral.ofChars? (Text.trim line.toList) = some numeral) (i : Instruction) :
    readWord i line =
      if Decimal.digitLimit < numeral.digits.length then
        .error (.digitLimit numeral.digits.length)
      else if Word.InRange numeral.value then .ok numeral.value
      else .error (.fault (.ofFault (.input i (.outOfRange numeral.value)))) := by
  have hne : line ≠ "" := by
    rintro rfl
    cases h
  unfold readWord
  rw [if_neg hne]
  simp only [h]

/-- A line that is no number is an input problem, the empty line among them. -/
theorem readWord_of_none {line : String}
    (h : Decimal.Numeral.ofChars? (Text.trim line.toList) = none) :
    ∃ problem, ∀ i, readWord i line = .error (.fault (.ofFault (.input i problem))) := by
  by_cases he : line = ""
  · refine ⟨.endOfInput, fun i => ?_⟩
    unfold readWord
    rw [if_pos he]
  · refine ⟨.notAnInteger (String.ofList (Text.trim line.toList)), fun i => ?_⟩
    unfold readWord
    rw [if_neg he]
    simp only [h]

theorem readWord_cases (line : String) :
    (∃ value, Word.InRange value ∧ ∀ i, readWord i line = .ok value) ∨
      (∃ problem, ∀ i, readWord i line = .error (.fault (.ofFault (.input i problem)))) ∨
        ∃ digits, ∀ i, readWord i line = .error (.digitLimit digits) := by
  cases hn : Decimal.Numeral.ofChars? (Text.trim line.toList) with
  | none => exact .inr (.inl (readWord_of_none hn))
  | some numeral =>
    have hw := readWord_of_numeral hn
    by_cases hd : Decimal.digitLimit < numeral.digits.length
    · exact .inr (.inr ⟨_, fun i => by rw [hw, if_pos hd]⟩)
    by_cases hr : Word.InRange numeral.value
    · exact .inl ⟨_, hr, fun i => by rw [hw, if_neg hd, if_pos hr]⟩
    · exact .inr (.inl ⟨_, fun i => by rw [hw, if_neg hd, if_neg hr]⟩)

theorem readCode_cases (text : String) :
    (∃ value, Word.InRange value ∧ ∀ i, readCode i text = .ok value) ∨
      ∃ problem, ∀ i, readCode i text = .error (.fault (.ofFault (.input i problem))) := by
  cases ht : text.toList with
  | nil => exact .inr ⟨.endOfInput, fun i => by simp [readCode, ht]⟩
  | cons c rest =>
    refine .inl ⟨c.toNat, ?_, fun i => by simp [readCode, ht]⟩
    have hc : c.toNat < 0xD800 ∨ 0xDFFF < c.toNat ∧ c.toNat < 0x110000 := c.valid
    unfold Word.InRange Word.minValue Word.maxValue
    omega

/-- A text that was read denotes a word, is an input problem, or has too many digits; the
instruction matters only for the blame. -/
theorem reader?_cases {c : Command} {read : Console → Except Raised String × Console}
    {word : Instruction → String → Except Stop Int} (hc : c.reader? = some (read, word))
    (text : String) :
    (∃ value, Word.InRange value ∧ ∀ i, word i text = .ok value) ∨
      (∃ problem, ∀ i, word i text = .error (.fault (.ofFault (.input i problem)))) ∨
        ∃ digits, ∀ i, word i text = .error (.digitLimit digits) := by
  cases c <;> cases hc
  · rcases readCode_cases text with h | h
    · exact .inl h
    · exact .inr (.inl h)
  · exact readWord_cases text

/-! ## Every effect follows a rule -/

section

variable {m : Machine} {i : Instruction}

theorem not_isExecutable_of_number (hk : i.command.operandKind? = some .number)
    (hn : i.number? = none) : ¬i.IsExecutable := by
  intro h
  have := Instruction.number?_isSome.mpr (h.2 _ hk)
  rw [hn] at this
  cases this

theorem not_isExecutable_of_label (hk : i.command.operandKind? = some .label)
    (hn : i.labelName? = none) : ¬i.IsExecutable := by
  intro h
  have := Instruction.labelName?_isSome.mpr (h.2 _ hk)
  rw [hn] at this
  cases this

theorem isExecutable_of_number {value : Int} (hf : i.family = i.command.family)
    (hk : i.command.operandKind? = some .number) (hn : i.number? = some value) :
    i.IsExecutable := by
  refine ⟨hf, fun kind hkind => ?_⟩
  rw [hk] at hkind
  cases hkind
  exact Instruction.number?_isSome.mp (by rw [hn]; rfl)

theorem isExecutable_of_label {name : String} (hf : i.family = i.command.family)
    (hk : i.command.operandKind? = some .label) (hn : i.labelName? = some name) :
    i.IsExecutable := by
  refine ⟨hf, fun kind hkind => ?_⟩
  rw [hk] at hkind
  cases hkind
  exact Instruction.labelName?_isSome.mp (by rw [hn]; rfl)

theorem isExecutable_of_none (hf : i.family = i.command.family)
    (hk : i.command.operandKind? = none) : i.IsExecutable :=
  ⟨hf, fun _ hkind => by rw [hk] at hkind; cases hkind⟩

/-- A family refuses a command that it does not know. -/
theorem execute_of_family_ne (h : i.family ≠ i.command.family) :
    m.execute i = .fault m (.inconsistent i) := by
  -- Of the pairs of a command and a family, one a command is against the hypothesis.
  cases hc : i.command <;> cases hf : i.family <;>
    first
    | exact absurd (by rw [hf, hc]; rfl) h
    | simp only [execute, executeStack, executeArithmetic, executeHeap, executeFlow, executeIo,
        operation?, hf, hc]

theorem length_lt_two {values : List Int}
    (h : ∀ first second rest, values = first :: second :: rest → False) : values.length < 2 := by
  rcases values with _ | ⟨first, _ | ⟨second, rest⟩⟩
  · exact Nat.zero_lt_two
  · exact Nat.one_lt_two
  · exact (h first second rest rfl).elim

theorem is_of_command {c : Command} (hf : i.family = i.command.family) (hc : i.command = c) :
    i.Is c :=
  ⟨hc, by rw [hf, hc]⟩

theorem executes_empty (h : i.IsExecutable) (hn : i.command.needed = 1) (hm : m.stack = []) :
    Executes m i (m.underflow i 1) := by
  rw [← hn]
  refine .underflow h ?_
  rw [hn, hm]
  exact Nat.one_pos

theorem executes_short (h : i.IsExecutable) (hn : i.command.needed = 2)
    (hm : ∀ first second rest, m.stack = first :: second :: rest → False) :
    Executes m i (m.underflow i 2) := by
  rw [← hn]
  refine .underflow h ?_
  rw [hn]
  exact length_lt_two hm

theorem executes_stack (hf : i.family = i.command.family) (hs : i.family = .stack) :
    Executes m i (m.executeStack i) := by
  unfold executeStack
  split
  · next hc =>
    have hk : i.command.operandKind? = some .number := by rw [hc]; rfl
    split
    · next hv => exact .push (is_of_command hf hc) hv
    · next hn => exact .inconsistent (not_isExecutable_of_number hk hn)
  · next hc =>
    split
    · next hm => exact .duplicate (is_of_command hf hc) hm
    · next hm =>
      have he := isExecutable_of_none hf (by rw [hc]; rfl)
      exact executes_empty he (by rw [hc]; rfl) hm
  · next hc =>
    have hk : i.command.operandKind? = some .number := by rw [hc]; rfl
    split
    · next hv =>
      split
      · next hi => exact .copyNth (is_of_command hf hc) hv hi
      · next hi => exact .copyOutside (is_of_command hf hc) hv hi
    · next hn => exact .inconsistent (not_isExecutable_of_number hk hn)
  · next hc =>
    split
    · next hm => exact .swap (is_of_command hf hc) hm
    · next hm =>
      have he := isExecutable_of_none hf (by rw [hc]; rfl)
      exact executes_short he (by rw [hc]; rfl) hm
  · next hc =>
    split
    · next hm => exact .discard (is_of_command hf hc) hm
    · next hm =>
      have he := isExecutable_of_none hf (by rw [hc]; rfl)
      exact executes_empty he (by rw [hc]; rfl) hm
  · next hc =>
    have hk : i.command.operandKind? = some .number := by rw [hc]; rfl
    split
    · next hv =>
      split
      · next hm =>
        split
        · next hn => exact .slideNegative (is_of_command hf hc) hv hm hn
        · next hn => exact .slide (is_of_command hf hc) hv hm hn
      · next hm =>
        have he := isExecutable_of_number hf hk hv
        exact executes_empty he (by rw [hc]; rfl) hm
    · next hn => exact .inconsistent (not_isExecutable_of_number hk hn)
  · rw [hs] at hf
    cases hc : i.command <;> simp_all [Command.family]

theorem executes_arithmetic (hf : i.family = i.command.family) (hs : i.family = .arithmetic) :
    Executes m i (m.executeArithmetic i) := by
  unfold executeArithmetic
  split
  · next operation ho =>
    split
    · next right left rest hm =>
      split
      · next hd =>
        obtain ⟨rfl, hd⟩ := hd
        exact .divisionByZero hs ho hm hd
      · next hd => exact .arithmetic hs ho hm hd
    · next hm =>
      have he : i.IsExecutable := by
        apply isExecutable_of_none hf
        cases hc : i.command <;> simp_all [operation?, Command.operandKind?]
      have hn : i.command.needed = 2 := by
        cases hc : i.command <;> simp_all [operation?, Command.needed]
      exact executes_short he hn hm
  · rw [hs] at hf
    cases hc : i.command <;> simp_all [Command.family, operation?]

theorem executes_heap (hf : i.family = i.command.family) (hs : i.family = .heap) :
    Executes m i (m.executeHeap i) := by
  unfold executeHeap
  split
  · next hc =>
    split
    · next hm =>
      split
      · next ha => exact .store (is_of_command hf hc) hm ha
      · next ha => exact .storeOutside (is_of_command hf hc) hm ha
    · next hm =>
      have he := isExecutable_of_none hf (by rw [hc]; rfl)
      exact executes_short he (by rw [hc]; rfl) hm
  · next hc =>
    split
    · next hm =>
      split
      · next ha => exact .retrieve (is_of_command hf hc) hm ha
      · next ha => exact .retrieveOutside (is_of_command hf hc) hm ha
    · next hm =>
      have he := isExecutable_of_none hf (by rw [hc]; rfl)
      exact executes_empty he (by rw [hc]; rfl) hm
  · rw [hs] at hf
    cases hc : i.command <;> simp_all [Command.family]

theorem executes_jumpIf {condition : Int → Bool} (hf : i.family = i.command.family)
    (hs : i.family = .flow) (hc : i.command.condition? = some condition) :
    Executes m i (m.jumpIf i condition) := by
  have hk : i.command.operandKind? = some .label := by
    cases h : i.command <;> simp_all [Command.condition?, Command.operandKind?]
  have hn : i.command.needed = 1 := by
    cases h : i.command <;> simp_all [Command.condition?, Command.needed]
  unfold Machine.jumpIf
  cases hl : i.labelName? with
  | none => exact .inconsistent (not_isExecutable_of_label hk hl)
  | some name =>
    simp only [Option.isNone_some, Bool.false_eq_true, ↓reduceIte]
    split
    · next value rest hm =>
      split
      · next hv =>
        unfold Machine.jump
        rcases ho : i.operand with _ | ⟨_⟩ | ⟨name, _ | target⟩
        · simp [Instruction.labelName?, ho] at hl
        · simp [Instruction.labelName?, ho] at hl
        · exact .unresolvedIf hs hc ho hm hv
        · exact .jumpIf hs hc ho hm hv
      · next hv => exact .skip hs hc hl hm (Bool.not_eq_true _ ▸ hv)
    · next hm =>
      have he := isExecutable_of_label hf hk hl
      exact executes_empty he hn hm

theorem executes_flow (hf : i.family = i.command.family) (hs : i.family = .flow) :
    Executes m i (m.executeFlow i) := by
  unfold executeFlow
  split
  · next hc =>
    have hk : i.command.operandKind? = some .label := by rw [hc]; rfl
    cases hl : i.labelName? with
    | none => exact .inconsistent (not_isExecutable_of_label hk hl)
    | some name => exact .mark (is_of_command hf hc) hl
  · next hc =>
    have hk : i.command.operandKind? = some .label := by rw [hc]; rfl
    rcases ho : i.operand with _ | ⟨_⟩ | ⟨name, _ | target⟩
    · exact .inconsistent (not_isExecutable_of_label hk (by rw [Instruction.labelName?, ho]))
    · exact .inconsistent (not_isExecutable_of_label hk (by rw [Instruction.labelName?, ho]))
    · exact .unresolved (.inl (is_of_command hf hc)) ho
    · exact .call (is_of_command hf hc) ho
  · next hc =>
    have hk : i.command.operandKind? = some .label := by rw [hc]; rfl
    unfold Machine.jump
    rcases ho : i.operand with _ | ⟨_⟩ | ⟨name, _ | target⟩
    · exact .inconsistent (not_isExecutable_of_label hk (by rw [Instruction.labelName?, ho]))
    · exact .inconsistent (not_isExecutable_of_label hk (by rw [Instruction.labelName?, ho]))
    · exact .unresolved (.inr (is_of_command hf hc)) ho
    · exact .jump (is_of_command hf hc) ho
  · next hc => exact executes_jumpIf hf hs (by rw [hc]; rfl)
  · next hc => exact executes_jumpIf hf hs (by rw [hc]; rfl)
  · next hc =>
    split
    · next hm => exact .ret (is_of_command hf hc) hm
    · next hm => exact .retUnderflow (is_of_command hf hc) hm
  · next hc => exact .exit (is_of_command hf hc)
  · rw [hs] at hf
    cases hc : i.command <;> simp_all [Command.family]

theorem executes_readInto {read : Console → Except Raised String × Console}
    {word : Instruction → String → Except Stop Int} (hf : i.family = i.command.family)
    (hs : i.family = .io) (hc : i.command.reader? = some (read, word)) :
    Executes m i (m.readInto i read word) := by
  have hk : i.command.operandKind? = none := by
    cases h : i.command <;> simp_all [Command.reader?, Command.operandKind?]
  have hn : i.command.needed = 1 := by
    cases h : i.command <;> simp_all [Command.reader?, Command.needed]
  unfold readInto
  split
  · next address rest hm =>
    split
    · next cell ha =>
      rcases hr : read m.console with ⟨raised | text, console⟩
      · exact .readFailed hs hc hm ha hr
      · cases hw : word i text with
        | error stop =>
          simp only [hw]
          exact .readRefused hs hc hm ha hr hw
        | ok value =>
          simp only [hw]
          exact .read hs hc hm ha hr hw
    · next ha => exact .readOutside hs hc hm ha
  · next hm =>
    exact executes_empty (isExecutable_of_none hf hk) hn hm

theorem executes_io (hf : i.family = i.command.family) (hs : i.family = .io) :
    Executes m i (m.executeIo i) := by
  unfold executeIo
  split
  · next hc =>
    split
    · next hm =>
      split
      · next ho => exact .outputOutside (is_of_command hf hc) hm ho
      · next ho =>
        split
        · next hu => exact .outputSurrogate (is_of_command hf hc) hm ho hu
        · next hu => exact .outputCharacter (is_of_command hf hc) hm ho (Bool.not_eq_true _ ▸ hu)
    · next hm =>
      have he := isExecutable_of_none hf (by rw [hc]; rfl)
      exact executes_empty he (by rw [hc]; rfl) hm
  · next hc =>
    split
    · next hm => exact .outputNumber (is_of_command hf hc) hm
    · next hm =>
      have he := isExecutable_of_none hf (by rw [hc]; rfl)
      exact executes_empty he (by rw [hc]; rfl) hm
  · next hc => exact executes_readInto hf hs (by rw [hc]; rfl)
  · next hc => exact executes_readInto hf hs (by rw [hc]; rfl)
  · rw [hs] at hf
    cases hc : i.command <;> simp_all [Command.family]

/-- Every effect of an instruction is that of a rule. -/
theorem executes (m : Machine) (i : Instruction) : Executes m i (m.execute i) := by
  by_cases hf : i.family = i.command.family
  · unfold execute
    split
    · next hs => exact executes_stack hf hs
    · next hs => exact executes_arithmetic hf hs
    · next hs => exact executes_heap hf hs
    · next hs => exact executes_flow hf hs
    · next hs => exact executes_io hf hs
  · rw [execute_of_family_ne hf]
    exact .inconsistent fun h => hf h.1

/-! ## Every rule is followed -/

theorem execute_of_number?_eq_none (hf : i.family = i.command.family)
    (hk : i.command.operandKind? = some .number) (hn : i.number? = none) :
    m.execute i = .fault m (.inconsistent i) := by
  cases hc : i.command <;> simp_all [Command.operandKind?] <;>
    simp [execute, executeStack, Command.family, hf, hc, hn]

theorem execute_of_labelName?_eq_none (hf : i.family = i.command.family)
    (hk : i.command.operandKind? = some .label) (hn : i.labelName? = none) :
    m.execute i = .fault m (.inconsistent i) := by
  rcases ho : i.operand with _ | ⟨_⟩ | _
  · cases hc : i.command <;> simp_all [Command.operandKind?] <;>
      simp [execute, executeFlow, Machine.jump, jumpIf, Command.family, hf, hc, hn, ho]
  · cases hc : i.command <;> simp_all [Command.operandKind?] <;>
      simp [execute, executeFlow, Machine.jump, jumpIf, Command.family, hf, hc, hn, ho]
  · simp [Instruction.labelName?, ho] at hn

/-- An instruction whose family or operand does not belong to its command is refused. -/
theorem execute_of_not_isExecutable (h : ¬i.IsExecutable) :
    m.execute i = .fault m (.inconsistent i) := by
  by_cases hf : i.family = i.command.family
  · cases hk : i.command.operandKind? with
    | none => exact absurd (isExecutable_of_none hf hk) h
    | some kind =>
      cases kind with
      | number =>
        cases hn : i.number? with
        | none => exact execute_of_number?_eq_none hf hk hn
        | some value => exact absurd (isExecutable_of_number hf hk hn) h
      | label =>
        cases hn : i.labelName? with
        | none => exact execute_of_labelName?_eq_none hf hk hn
        | some name => exact absurd (isExecutable_of_label hf hk hn) h
  · exact execute_of_family_ne hf

/-- An instruction that lacks values on the stack fails before it looks at anything else. -/
theorem execute_of_lack (h : i.IsExecutable) (lack : m.stack.length < i.command.needed) :
    m.execute i = m.underflow i i.command.needed := by
  have hnumber (hk : i.command.operandKind? = some .number) : ∃ value, i.number? = some value :=
    Option.isSome_iff_exists.mp (Instruction.number?_isSome.mpr (h.2 _ hk))
  have hlabel (hk : i.command.operandKind? = some .label) : ∃ name, i.labelName? = some name :=
    Option.isSome_iff_exists.mp (Instruction.labelName?_isSome.mpr (h.2 _ hk))
  have hf := h.1
  rcases hm : m.stack with _ | ⟨first, _ | ⟨second, rest⟩⟩ <;> rw [hm] at lack
  case cons.cons =>
    have := i.command.needed_le_two
    simp only [List.length_cons] at lack
    omega
  -- The stack has less than two values. Each command that needs more fails on it; where a command
  -- looks at its operand first, the operand is there.
  all_goals
    cases hc : i.command <;> rw [hc] at hf hnumber hlabel lack <;>
      first
      | (simp [Command.needed] at lack; done)
      | (simp [execute, executeStack, executeArithmetic, executeHeap, executeIo, readInto,
          operation?, Command.family, Command.needed, hf, hc, hm]; done)
      | (obtain ⟨value, hv⟩ := hnumber rfl
         simp [execute, executeStack, Command.family, Command.needed, hf, hc, hm, hv])
      | (obtain ⟨name, hl⟩ := hlabel rfl
         simp [execute, executeFlow, jumpIf, Command.family, Command.needed, hf, hc, hm, hl])

theorem condition?_cases {c : Command} {condition : Int → Bool}
    (h : c.condition? = some condition) :
    c = .jumpIfZero ∧ condition = (fun value => decide (value = 0)) ∨
      c = .jumpIfNegative ∧ condition = fun value => decide (value < 0) := by
  cases c <;> simp_all [Command.condition?]

theorem execute_condition {condition : Int → Bool} (hf : i.family = .flow)
    (hc : i.command.condition? = some condition) : m.execute i = m.jumpIf i condition := by
  rcases condition?_cases hc with ⟨h, rfl⟩ | ⟨h, rfl⟩ <;> simp [execute, executeFlow, hf, h]

theorem execute_reader {read : Console → Except Raised String × Console}
    {word : Instruction → String → Except Stop Int} (hf : i.family = .io)
    (hc : i.command.reader? = some (read, word)) : m.execute i = m.readInto i read word := by
  cases h : i.command <;> simp_all [Command.reader?, execute, executeIo]

/-- Every rule is followed. -/
theorem Executes.eq {e : Effect} (h : Executes m i e) : m.execute i = e := by
  cases h with
  | inconsistent h => exact execute_of_not_isExecutable h
  | underflow h lack => exact execute_of_lack h lack
  | arithmetic hf ho hm hd | divisionByZero hf ho hm hd =>
    simp [execute, executeArithmetic, hf, ho, hm, hd]
  | jumpIf hf hc ho hm hv | unresolvedIf hf hc ho hm hv =>
    rw [execute_condition hf hc]
    simp [Machine.jumpIf, Machine.jump, Instruction.labelName?, ho, hm, hv]
  | skip hf hc hl hm hv =>
    rw [execute_condition hf hc]
    simp [Machine.jumpIf, hl, hm, hv]
  | readOutside hf hc hm ha =>
    rw [execute_reader hf hc]
    simp [readInto, hm, ha]
  | readFailed hf hc hm ha hr =>
    rw [execute_reader hf hc]
    simp [readInto, hm, ha, hr]
  | readRefused hf hc hm ha hr hw | read hf hc hm ha hr hw =>
    rw [execute_reader hf hc]
    simp [readInto, hm, ha, hr, hw]
  | unresolved is ho =>
    obtain ⟨hc, hf⟩ | ⟨hc, hf⟩ := is <;>
      simp [execute, executeFlow, Machine.jump, Command.family, hf, hc, ho]
  | mark is hl =>
    obtain ⟨hc, hf⟩ := is
    simp [execute, executeFlow, Command.family, hf, hc, hl]
  | call is ho | jump is ho | ret is ho | retUnderflow is ho =>
    obtain ⟨hc, hf⟩ := is
    simp [execute, executeFlow, Machine.jump, Command.family, hf, hc, ho]
  | exit is =>
    obtain ⟨hc, hf⟩ := is
    simp [execute, executeFlow, Command.family, hf, hc]
  | push is h₁ | duplicate is h₁ | swap is h₁ | discard is h₁ =>
    obtain ⟨hc, hf⟩ := is
    simp [execute, executeStack, Command.family, hf, hc, h₁]
  | copyNth is h₁ h₂ | copyOutside is h₁ h₂ =>
    obtain ⟨hc, hf⟩ := is
    simp [execute, executeStack, Command.family, hf, hc, h₁, h₂]
  | slide is h₁ h₂ h₃ | slideNegative is h₁ h₂ h₃ =>
    obtain ⟨hc, hf⟩ := is
    simp [execute, executeStack, Command.family, hf, hc, h₁, h₂, h₃]
  | store is h₁ h₂ | storeOutside is h₁ h₂ | retrieve is h₁ h₂ | retrieveOutside is h₁ h₂ =>
    obtain ⟨hc, hf⟩ := is
    simp [execute, executeHeap, Command.family, hf, hc, h₁, h₂]
  | outputNumber is h₁ =>
    obtain ⟨hc, hf⟩ := is
    simp [execute, executeIo, Command.family, hf, hc, h₁]
  | outputOutside is h₁ h₂ =>
    obtain ⟨hc, hf⟩ := is
    simp [execute, executeIo, Command.family, hf, hc, h₁, h₂]
  | outputCharacter is h₁ h₂ h₃ | outputSurrogate is h₁ h₂ h₃ =>
    obtain ⟨hc, hf⟩ := is
    simp [execute, executeIo, Command.family, hf, hc, h₁, h₂, h₃]

/-- The rules and the interpreter are the same. -/
theorem execute_iff {e : Effect} : m.execute i = e ↔ Executes m i e :=
  ⟨fun h => h ▸ executes m i, Executes.eq⟩

/-- A read with a valid address takes one item. -/
theorem execute_console_of_read {read : Console → Except Raised String × Console}
    {word : Instruction → String → Except Stop Int} {address : Int} {rest : List Int} {cell : Nat}
    (family : i.family = .io) (command : i.command.reader? = some (read, word))
    (stack : m.stack = address :: rest) (inside : m.heap.address? address = some cell) :
    (m.execute i).machine.console = (read m.console).2 := by
  rw [execute_reader family command]
  unfold readInto
  rw [stack]
  simp only [inside]
  cases (read m.console).1 with
  | error raised => rfl
  | ok text =>
    simp only
    cases word i text <;> rfl

/-- A read without a valid address takes nothing. -/
theorem execute_machine_of_invalid {read : Console → Except Raised String × Console}
    {word : Instruction → String → Except Stop Int} (family : i.family = .io)
    (command : i.command.reader? = some (read, word))
    (outside : ∀ address rest, m.stack = address :: rest → m.heap.address? address = none) :
    (m.execute i).machine = m := by
  rw [execute_reader family command]
  unfold readInto
  split
  · next address rest stack =>
    rw [outside address rest stack]
    rfl
  · rfl

/-- A read preserves what the device that it reads from preserves. -/
theorem reader?_preserves {P : Console → Prop} {c : Command}
    {read : Console → Except Raised String × Console}
    {word : Instruction → String → Except Stop Int} (hc : c.reader? = some (read, word))
    (readChar : c = .readCharacter → ∀ console : Console, P console → P console.readChar.2)
    (readLine : ∀ console : Console, P console → P console.readLine.2)
    {before after : Console} {result : Except Raised String} (hr : read before = (result, after))
    (h : P before) : P after := by
  have heq : (read before).2 = after := congrArg Prod.snd hr
  rw [← heq]
  cases c <;> cases hc
  · exact readChar rfl before h
  · exact readLine before h

/-- What the console undergoes while an instruction is executed: characters are read only by the
command for it, and nothing is shown on a silent machine. -/
theorem execute_console {P : Console → Prop}
    (readChar : i.command = .readCharacter → ∀ c : Console, P c → P c.readChar.2)
    (readLine : ∀ c : Console, P c → P c.readLine.2)
    (emit : m.silent = false → ∀ c text, P c → P (c.emit text)) (h : P m.console) :
    P (m.execute i).machine.console := by
  have he := executes m i
  generalize m.execute i = e at he ⊢
  cases he with
  | readFailed family command stack inside result | readRefused family command stack inside result
  | read family command stack inside result =>
    exact reader?_preserves command readChar readLine result h
  | outputCharacter | outputNumber =>
    simp only [Effect.completed_machine, output]
    split
    · exact h
    · next loud =>
      rw [Bool.not_eq_true] at loud
      exact emit loud _ _ h
  | _ => exact h

/-! ## Steps -/

variable {p : Program}

theorem step_eq_perform (next : m.next p = .instruction i) : m.step p = m.perform i := by
  unfold step
  rw [next]

theorem perform_machine (m : Machine) (i : Instruction) :
    (m.perform i).machine =
      { ((m.record i).execute i).machine with
        pointer := ((m.record i).execute i).machine.pointer + 1 } :=
  rfl

theorem perform_stop_eq_some_iff {stop : Stop} :
    (m.perform i).stop = some stop ↔
      ∃ cause, ((m.record i).execute i).stop = some cause ∧
        cause.atStep m.pointer m.executed = stop :=
  Option.map_eq_some_iff

/-- Performing an instruction that completes. -/
theorem perform_of_completed {after : Machine}
    (rule : Executes (m.record i) i (.completed after)) :
    m.perform i = .completed { after with pointer := after.pointer + 1 } := by
  rw [perform, rule.eq]
  rfl

/-- Performing an instruction that does not complete. -/
theorem perform_of_stopped {after : Machine} {stop : Stop}
    (rule : Executes (m.record i) i (.stopped after stop)) :
    m.perform i =
      .stopped { after with pointer := after.pointer + 1 } (stop.atStep m.pointer m.executed) := by
  rw [perform, rule.eq]
  rfl

/-- The step of an instruction that completes. -/
theorem step_of_completed {after : Machine} (next : m.next p = .instruction i)
    (rule : Executes (m.record i) i (.completed after)) :
    m.step p = .completed { after with pointer := after.pointer + 1 } :=
  (step_eq_perform next).trans (perform_of_completed rule)

/-- The step of an instruction that does not complete. -/
theorem step_of_stopped {after : Machine} {stop : Stop} (next : m.next p = .instruction i)
    (rule : Executes (m.record i) i (.stopped after stop)) :
    m.step p =
      .stopped { after with pointer := after.pointer + 1 } (stop.atStep m.pointer m.executed) :=
  (step_eq_perform next).trans (perform_of_stopped rule)

/-- What stops a step has stopped the instruction that is next, unless there is none. -/
theorem step_stop_cases {stop : Stop} (h : (m.step p).stop = some stop) :
    (m.next p = .outside ∧ stop = .outsideProgram) ∨
      ∃ i cause, m.next p = .instruction i ∧ ((m.record i).execute i).stop = some cause ∧
        cause.atStep m.pointer m.executed = stop := by
  cases hn : m.next p with
  | halted =>
    unfold step at h
    rw [hn] at h
    cases h
  | outside =>
    unfold step at h
    rw [hn] at h
    cases h
    exact .inl ⟨rfl, rfl⟩
  | instruction i =>
    rw [step_eq_perform hn] at h
    obtain ⟨cause, hs, he⟩ := perform_stop_eq_some_iff.mp h
    exact .inr ⟨i, cause, rfl, hs, he⟩

end

end Machine

end Whitespace
