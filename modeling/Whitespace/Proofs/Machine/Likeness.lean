import Whitespace.Proofs.Machine.Rules

/-!
# Machines that are alike

An instruction looks at the heap only by the cell of an address, and at the console only by reading a
character or a line and by showing a text. Machines whose heaps and consoles cannot be told apart in
this way, and that are the same otherwise, execute an instruction alike and are alike again.

Results:
1. `Machine.MissesHeap.perform_stop`: an instruction that looks outside of the heap fails.
2. `Likeness.Machines.execute`, `Likeness.Machines.perform`: what instructions do to machines that
   are alike.
3. `Likeness.Machines.step`: and what a step does to them.
-/

namespace Whitespace

/-! ## Addresses -/

/-- On a stack the instruction looks for the cell of an address: a store for the one below its
value, a retrieve or a read for the one on top. -/
inductive Instruction.Addresses (i : Instruction) : List Int → Int → Prop
  | store {value address : Int} {rest : List Int} (is : i.Is .store) :
      i.Addresses (value :: address :: rest) address
  | retrieve {address : Int} {rest : List Int} (is : i.Is .retrieve) :
      i.Addresses (address :: rest) address
  | read {address : Int} {rest : List Int} (is : i.Is .readCharacter ∨ i.Is .readNumber) :
      i.Addresses (address :: rest) address

theorem Instruction.is_read {i : Instruction} {read : Console → Except Raised String × Console}
    {word : Instruction → String → Except Stop Int} (family : i.family = .io)
    (command : i.command.reader? = some (read, word)) : i.Is .readCharacter ∨ i.Is .readNumber := by
  cases hc : i.command <;> rw [hc] at command <;> cases command
  · exact .inl ⟨hc, family⟩
  · exact .inr ⟨hc, family⟩

theorem Heap.address?_congr {h h' : Heap} (size : h'.size = h.size) (address : Int) :
    h'.address? address = h.address? address := by
  unfold address?
  rw [size]

namespace Machine

variable {m : Machine} {i : Instruction}

/-- The instruction looks for a cell that the heap does not have. -/
def MissesHeap (m : Machine) (i : Instruction) : Prop :=
  ∃ address, i.Addresses m.stack address ∧ m.heap.address? address = none

theorem execute_of_addresses {address : Int} (addresses : i.Addresses m.stack address)
    (outside : m.heap.address? address = none) : m.execute i = m.badAddress i address := by
  refine Executes.eq ?_
  generalize stack : m.stack = values at addresses
  cases addresses with
  | store is => exact .storeOutside is stack outside
  | retrieve is => exact .retrieveOutside is stack outside
  | read is =>
    rcases is with is | is
    · exact .readOutside is.2 (by rw [is.1]; rfl) stack outside
    · exact .readOutside is.2 (by rw [is.1]; rfl) stack outside

theorem MissesHeap.execute_eq (h : m.MissesHeap i) :
    ∃ address, m.execute i = m.badAddress i address := by
  obtain ⟨address, addresses, outside⟩ := h
  exact ⟨address, execute_of_addresses addresses outside⟩

/-- An instruction that looks outside of the heap fails, and says which addresses there are. -/
theorem MissesHeap.perform_stop (h : m.MissesHeap i) :
    ∃ address, (m.perform i).stop = some (.fault
      ⟨.outOfBounds i address 0 (m.heap.size - 1) "", some m.pointer, some m.executed, none⟩) := by
  have h : (m.record i).MissesHeap i := h
  obtain ⟨address, executed⟩ := h.execute_eq
  refine ⟨address, ?_⟩
  rw [perform_of_stopped (execute_iff.mp executed)]
  rfl

end Machine

/-! ## Alike -/

def Console.emitUnless (silent : Bool) (text : String) (c : Console) : Console :=
  if silent then c else c.emit text

theorem Machine.output_eq_emitUnless (m : Machine) (text : String) :
    m.output text = { m with console := m.console.emitUnless m.silent text } := by
  unfold output Console.emitUnless
  split <;> rfl

/-- When heaps are alike, and consoles, each of these with whether its output is dropped. They give
the same answers, and stay alike. -/
structure Likeness where
  Heaps : Heap → Heap → Prop
  Consoles : Bool → Console → Bool → Console → Prop
  inside {h h' : Heap} {address : Int} {cell : Nat} (heaps : Heaps h h')
    (inside : h.address? address = some cell) : h'.address? address = some cell
  read {h h' : Heap} (heaps : Heaps h h') (cell : Nat) : h'.read cell = h.read cell
  write {h h' : Heap} {address : Int} {cell : Nat} (heaps : Heaps h h')
    (inside : h.address? address = some cell) (value : Int) :
    Heaps (h.write cell value) (h'.write cell value)
  readChar {b b' : Bool} {c c' : Console} (consoles : Consoles b c b' c') :
    c'.readChar.1 = c.readChar.1 ∧ Consoles b c.readChar.2 b' c'.readChar.2
  readLine {b b' : Bool} {c c' : Console} (consoles : Consoles b c b' c') :
    c'.readLine.1 = c.readLine.1 ∧ Consoles b c.readLine.2 b' c'.readLine.2
  emit {b b' : Bool} {c c' : Console} (consoles : Consoles b c b' c') (text : String) :
    Consoles b (c.emitUnless b text) b' (c'.emitUnless b' text)

namespace Likeness

variable (L : Likeness)

/-- The machines have heaps that are alike, and consoles, and are the same otherwise. -/
structure Machines (m m' : Machine) : Prop where
  stack : m'.stack = m.stack
  calls : m'.calls = m.calls
  heap : L.Heaps m.heap m'.heap
  pointer : m'.pointer = m.pointer
  done : m'.done = m.done
  executed : m'.executed = m.executed
  last : m'.last = m.last
  log : m'.log = m.log
  console : L.Consoles m.silent m.console m'.silent m'.console

/-- The effects leave machines that are alike, and complete or not for the same reason. -/
structure Effects (e e' : Effect) : Prop where
  machine : L.Machines e.machine e'.machine
  stop : e'.stop = e.stop

/-- The instruction does not tell the sizes of the heaps: they are the same, or it does not look
outside of the heap. -/
def Fits (m : Machine) (i : Instruction) : Prop :=
  (∀ h h', L.Heaps h h' → h'.size = h.size) ∨ ¬m.MissesHeap i

variable {L} {m m' : Machine} {i : Instruction}

theorem exists_read {c : Command} {read : Console → Except Raised String × Console}
    {word : Instruction → String → Except Stop Int} (command : c.reader? = some (read, word))
    {b b' : Bool} {console console' after : Console} (consoles : L.Consoles b console b' console')
    {result : Except Raised String} (reads : read console = (result, after)) :
    ∃ after', read console' = (result, after') ∧ L.Consoles b after b' after' := by
  have h : (read console').1 = (read console).1 ∧
      L.Consoles b (read console).2 b' (read console').2 := by
    cases c <;> cases command
    · exact L.readChar consoles
    · exact L.readLine consoles
  rw [reads] at h
  exact ⟨(read console').2, Prod.ext h.1 rfl, h.2⟩

/-- Machines that are alike execute an instruction alike. -/
theorem Machines.execute (alike : L.Machines m m') (fits : L.Fits m i) :
    L.Effects (m.execute i) (m'.execute i) := by
  -- The other machine is the first one with another heap and another console, so that a premise of
  -- a rule about anything else serves both.
  obtain ⟨stack, calls, heap, pointer, done, executed, last, log, silent, console⟩ := m'
  obtain ⟨rfl, rfl, heaps, rfl, rfl, rfl, rfl, rfl, consoles⟩ := alike
  have keep {stack calls : List Int} {pointer : Int} {done : Bool} {stop : Option Stop} :
      L.Effects ⟨{ m with stack, calls, pointer, done }, stop⟩
        ⟨{ m with stack, calls, heap, pointer, done, silent, console }, stop⟩ :=
    ⟨⟨rfl, rfl, heaps, rfl, rfl, rfl, rfl, rfl, consoles⟩, rfl⟩
  have lacks {address : Int} (addresses : i.Addresses m.stack address)
      (outside : m.heap.address? address = none) : heap.size = m.heap.size :=
    fits.resolve_right (fun hits => hits ⟨address, addresses, outside⟩) m.heap heap heaps
  have refuse {address : Int} (size : heap.size = m.heap.size) :
      L.Effects (m.badAddress i address)
        (Machine.badAddress { m with heap, silent, console } i address) := by
    unfold Machine.badAddress
    rw [size]
    exact keep
  have h := Machine.executes m i
  generalize m.execute i = e at h ⊢
  suffices found : ∃ e', Machine.Executes { m with heap, silent, console } i e' ∧ L.Effects e e' by
    obtain ⟨e', rule, same⟩ := found
    rwa [rule.eq]
  cases h with
  | inconsistent h => exact ⟨_, .inconsistent h, keep⟩
  | underflow h lack => exact ⟨_, .underflow h lack, keep⟩
  | push is operand => exact ⟨_, .push is operand, keep⟩
  | duplicate is stack => exact ⟨_, .duplicate is stack, keep⟩
  | copyNth is operand inside => exact ⟨_, .copyNth is operand inside, keep⟩
  | copyOutside is operand outside => exact ⟨_, .copyOutside is operand outside, keep⟩
  | swap is stack => exact ⟨_, .swap is stack, keep⟩
  | discard is stack => exact ⟨_, .discard is stack, keep⟩
  | slide is operand stack positive => exact ⟨_, .slide is operand stack positive, keep⟩
  | slideNegative is operand stack negative =>
    exact ⟨_, .slideNegative is operand stack negative, keep⟩
  | arithmetic family command stack defined =>
    exact ⟨_, .arithmetic family command stack defined, keep⟩
  | divisionByZero family command stack division =>
    exact ⟨_, .divisionByZero family command stack division, keep⟩
  | mark is label => exact ⟨_, .mark is label, keep⟩
  | call is operand => exact ⟨_, .call is operand, keep⟩
  | jump is operand => exact ⟨_, .jump is operand, keep⟩
  | unresolved is operand => exact ⟨_, .unresolved is operand, keep⟩
  | jumpIf family command operand stack holds =>
    exact ⟨_, .jumpIf family command operand stack holds, keep⟩
  | unresolvedIf family command operand stack holds =>
    exact ⟨_, .unresolvedIf family command operand stack holds, keep⟩
  | skip family command label stack fails =>
    exact ⟨_, .skip family command label stack fails, keep⟩
  | ret is stack => exact ⟨_, .ret is stack, keep⟩
  | retUnderflow is stack => exact ⟨_, .retUnderflow is stack, keep⟩
  | exit is => exact ⟨_, .exit is, keep⟩
  | outputOutside is stack outside => exact ⟨_, .outputOutside is stack outside, keep⟩
  | outputSurrogate is stack inside surrogate =>
    exact ⟨_, .outputSurrogate is stack inside surrogate, keep⟩
  | store is stack inside =>
    refine ⟨_, .store is stack (L.inside heaps inside), ⟨?_, rfl⟩⟩
    exact ⟨rfl, rfl, L.write heaps inside _, rfl, rfl, rfl, rfl, rfl, consoles⟩
  | storeOutside is stack outside =>
    have size := lacks (stack ▸ .store is) outside
    exact ⟨_, .storeOutside is stack ((Heap.address?_congr size _).trans outside), refuse size⟩
  | retrieve is stack inside =>
    refine ⟨_, .retrieve is stack (L.inside heaps inside), ?_⟩
    simp only [L.read heaps]
    exact keep
  | retrieveOutside is stack outside =>
    have size := lacks (stack ▸ .retrieve is) outside
    exact ⟨_, .retrieveOutside is stack ((Heap.address?_congr size _).trans outside), refuse size⟩
  | outputCharacter is stack inside scalar =>
    refine ⟨_, .outputCharacter is stack inside scalar, ⟨?_, rfl⟩⟩
    simp only [Effect.completed_machine, Machine.output_eq_emitUnless]
    exact ⟨rfl, rfl, heaps, rfl, rfl, rfl, rfl, rfl, L.emit consoles _⟩
  | outputNumber is stack =>
    refine ⟨_, .outputNumber is stack, ⟨?_, rfl⟩⟩
    simp only [Effect.completed_machine, Machine.output_eq_emitUnless]
    exact ⟨rfl, rfl, heaps, rfl, rfl, rfl, rfl, rfl, L.emit consoles _⟩
  | readOutside family command stack outside =>
    have size := lacks (stack ▸ .read (Instruction.is_read family command)) outside
    exact ⟨_, .readOutside family command stack ((Heap.address?_congr size _).trans outside),
      refuse size⟩
  | readFailed family command stack inside result =>
    obtain ⟨_, result, after⟩ := exists_read command consoles result
    refine ⟨_, .readFailed family command stack (L.inside heaps inside) result, ⟨?_, rfl⟩⟩
    exact ⟨rfl, rfl, heaps, rfl, rfl, rfl, rfl, rfl, after⟩
  | readRefused family command stack inside result refused =>
    obtain ⟨_, result, after⟩ := exists_read command consoles result
    refine ⟨_, .readRefused family command stack (L.inside heaps inside) result refused, ⟨?_, rfl⟩⟩
    exact ⟨rfl, rfl, heaps, rfl, rfl, rfl, rfl, rfl, after⟩
  | read family command stack inside result accepted =>
    obtain ⟨_, result, after⟩ := exists_read command consoles result
    refine ⟨_, .read family command stack (L.inside heaps inside) result accepted, ⟨?_, rfl⟩⟩
    exact ⟨rfl, rfl, L.write heaps inside _, rfl, rfl, rfl, rfl, rfl, after⟩

/-- Machines that are alike are to execute the same. -/
theorem Machines.next (alike : L.Machines m m') (p : Program) : m'.next p = m.next p := by
  unfold Machine.next
  rw [alike.done, alike.pointer]

/-- Machines that are alike perform an instruction alike. -/
theorem Machines.perform (alike : L.Machines m m') (fits : L.Fits m i) :
    L.Effects (m.perform i) (m'.perform i) := by
  have recorded : L.Machines (m.record i) (m'.record i) := by
    unfold Machine.record
    rw [alike.executed, alike.pointer, alike.log]
    exact { alike with pointer := rfl, executed := rfl, last := rfl, log := rfl }
  obtain ⟨machine, stop⟩ := recorded.execute fits
  constructor
  · exact { machine with pointer := congrArg (· + 1) machine.pointer }
  · unfold Machine.perform
    simp only [stop, alike.pointer, alike.executed]

/-- Machines that are alike make a step alike. -/
theorem Machines.step {p : Program} (alike : L.Machines m m')
    (fits : ∀ i, m.next p = .instruction i → L.Fits m i) : L.Effects (m.step p) (m'.step p) := by
  unfold Machine.step
  rw [alike.next p]
  split
  · exact ⟨alike, rfl⟩
  · next i next => exact alike.perform (fits i next)
  · exact ⟨alike, rfl⟩

end Likeness

end Whitespace
