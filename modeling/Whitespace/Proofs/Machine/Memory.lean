import Whitespace.Proofs.Machine.Bounds
import Whitespace.Proofs.Machine.Course
import Whitespace.Proofs.Machine.Likeness

/-!
# The heap as a memory

What a retrieve finds in a cell is what was written there last, by a store or a read that completed,
and zero if nothing was. No other step touches the heap, so this holds along every course, whichever
of its steps fail.

Results:
1. `Step.exists_writes_iff`: the steps that write.
2. `Step.Writes.after_heap`, `Step.after_heap_of_not_isWrite`: what a step leaves in the heap.
3. `Heap.mem_nonzero_iff`, `Heap.nonzero_ascending`: the cells that a heap lists.
4. `Machine.Course.lastWritten`: a cell holds what was written there last.
5. `Machine.heap_remembers`: retrieves, steps and lists of a course.
-/

namespace Whitespace

/-! ## Steps that write -/

namespace Step

/-- The step writes a value to an address. A value to be stored is on top of its address. A
character that was read is written as its code point, and a line as the number that it denotes. -/
inductive Writes (s : Step) : Int → Int → Prop
  | store {value address : Int} {rest : List Int} (is : s.instruction.Is .store)
      (completes : s.stop = none) (stack : s.before.stack = value :: address :: rest) :
      s.Writes address value
  | readCharacter {address : Int} {rest : List Int} {text : String} {c : Char} {more : List Char}
      (is : s.instruction.Is .readCharacter) (completes : s.stop = none)
      (stack : s.before.stack = address :: rest) (read : s.before.console.readChar.1 = .ok text)
      (first : text.toList = c :: more) : s.Writes address c.toNat
  | readNumber {address : Int} {rest : List Int} {line : String} {numeral : Decimal.Numeral}
      (is : s.instruction.Is .readNumber) (completes : s.stop = none)
      (stack : s.before.stack = address :: rest) (read : s.before.console.readLine.1 = .ok line)
      (number : Decimal.Numeral.ofChars? (Text.trim line.toList) = some numeral) :
      s.Writes address numeral.value

/-- The step is a store or a read that completes. -/
def IsWrite (s : Step) : Prop :=
  s.stop = none ∧ (s.instruction.Is .store ∨ s.instruction.Is .readCharacter ∨
    s.instruction.Is .readNumber)

end Step

namespace Machine

variable {m : Machine} {i : Instruction}

theorem readCode_eq_ok {text : String} {value : Int} (h : readCode i text = .ok value) :
    ∃ c more, text.toList = c :: more ∧ value = c.toNat := by
  unfold readCode at h
  split at h
  · next c more first =>
    cases h
    exact ⟨c, more, first, rfl⟩
  · cases h

theorem readWord_eq_ok {line : String} {value : Int} (h : readWord i line = .ok value) :
    ∃ numeral, Decimal.Numeral.ofChars? (Text.trim line.toList) = some numeral ∧
      value = numeral.value := by
  cases number : Decimal.Numeral.ofChars? (Text.trim line.toList) with
  | none =>
    obtain ⟨problem, refused⟩ := readWord_of_none number
    rw [refused] at h
    cases h
  | some numeral =>
    rw [readWord_of_numeral number] at h
    split at h
    · cases h
    · split at h
      · cases h
        exact ⟨numeral, rfl, rfl⟩
      · cases h

/-- A store that completes. -/
theorem execute_store (is : i.Is .store) (completes : (m.execute i).stop = none) :
    ∃ value address rest cell, m.stack = value :: address :: rest ∧
      m.heap.address? address = some cell ∧
      (m.execute i).machine.heap = m.heap.write cell value := by
  obtain ⟨command, family⟩ := is
  simp only [execute, family, Command.family, executeHeap, command] at completes ⊢
  split at completes
  · next value address rest stack =>
    split at completes
    · next cell inside =>
      exact ⟨value, address, rest, cell, stack, inside, rfl⟩
    · cases completes
  · cases completes

/-- A read that completes. -/
theorem execute_read {read : Console → Except Raised String × Console}
    {word : Instruction → String → Except Stop Int} (family : i.family = .io)
    (command : i.command.reader? = some (read, word)) (completes : (m.execute i).stop = none) :
    ∃ address rest cell text value, m.stack = address :: rest ∧
      m.heap.address? address = some cell ∧ (read m.console).1 = .ok text ∧
      word i text = .ok value ∧ (m.execute i).machine.heap = m.heap.write cell value := by
  rw [execute_reader family command] at completes ⊢
  unfold readInto at completes ⊢
  split at completes
  · next address rest stack =>
    split at completes
    · next cell inside =>
      rcases result : read m.console with ⟨raised | text, console⟩
      · rw [result] at completes
        cases completes
      · cases accepted : word i text with
        | error stop =>
          simp only [result, accepted] at completes
          cases completes
        | ok value =>
          simp only [accepted]
          exact ⟨address, rest, cell, text, value, stack, inside, rfl, accepted, rfl⟩
    · cases completes
  · cases completes

/-- Executing touches the heap only by a store or a read that completes. -/
theorem execute_heap_cases (m : Machine) (i : Instruction) :
    (m.execute i).machine.heap = m.heap ∨
      (m.execute i).stop = none ∧ (i.Is .store ∨ i.Is .readCharacter ∨ i.Is .readNumber) := by
  have h := executes m i
  generalize m.execute i = e at h ⊢
  cases h with
  | store is => exact .inr ⟨rfl, .inl is⟩
  | read family command => exact .inr ⟨rfl, .inr (Instruction.is_read family command)⟩
  | outputCharacter | outputNumber => exact .inl (output_heap _ _)
  | _ => exact .inl rfl

end Machine

namespace Step

variable {s : Step} {address value : Int}

theorem Writes.isWrite (h : s.Writes address value) : s.IsWrite := by
  cases h with
  | store is completes => exact ⟨completes, .inl is⟩
  | readCharacter is completes => exact ⟨completes, .inr (.inl is)⟩
  | readNumber is completes => exact ⟨completes, .inr (.inr is)⟩

/-- A step writes one value to one address. -/
theorem Writes.unique {address' value' : Int} (h : s.Writes address value)
    (h' : s.Writes address' value') : address = address' ∧ value = value' := by
  cases h with
  | store is _ stack =>
    cases h' with
    | store _ _ stack' =>
      cases stack.symm.trans stack'
      exact ⟨rfl, rfl⟩
    | readCharacter is' | readNumber is' => cases is.1.symm.trans is'.1
  | readCharacter is _ stack read first =>
    cases h' with
    | readCharacter _ _ stack' read' first' =>
      cases stack.symm.trans stack'
      cases read.symm.trans read'
      cases first.symm.trans first'
      exact ⟨rfl, rfl⟩
    | store is' | readNumber is' => cases is.1.symm.trans is'.1
  | readNumber is _ stack read number =>
    cases h' with
    | readNumber _ _ stack' read' number' =>
      cases stack.symm.trans stack'
      cases read.symm.trans read'
      cases number.symm.trans number'
      exact ⟨rfl, rfl⟩
    | store is' | readCharacter is' => cases is.1.symm.trans is'.1

theorem IsWrite.exists_writes (h : s.IsWrite) :
    ∃ address value cell, s.Writes address value ∧
      s.before.heap.address? address = some cell ∧
      s.after.heap = s.before.heap.write cell value := by
  obtain ⟨stops, is⟩ := h
  have completes := s.stop_eq_none_iff.mp stops
  rcases is with is | is | is
  · obtain ⟨value, address, rest, cell, stack, inside, heap⟩ := Machine.execute_store is completes
    exact ⟨address, value, cell, .store is stops stack, inside, heap⟩
  · obtain ⟨address, rest, cell, text, value, stack, inside, read, accepted, heap⟩ :=
      Machine.execute_read is.2 (by rw [is.1]; rfl) completes
    obtain ⟨c, more, first, rfl⟩ := Machine.readCode_eq_ok accepted
    exact ⟨address, _, cell, .readCharacter is stops stack read first, inside, heap⟩
  · obtain ⟨address, rest, cell, line, value, stack, inside, read, accepted, heap⟩ :=
      Machine.execute_read is.2 (by rw [is.1]; rfl) completes
    obtain ⟨numeral, number, rfl⟩ := Machine.readWord_eq_ok accepted
    exact ⟨address, _, cell, .readNumber is stops stack read number, inside, heap⟩

/-- The steps that write are the stores and the reads that complete. -/
theorem exists_writes_iff : (∃ address value, s.Writes address value) ↔ s.IsWrite := by
  constructor
  · rintro ⟨address, value, writes⟩
    exact writes.isWrite
  · intro h
    obtain ⟨address, value, cell, writes, -⟩ := h.exists_writes
    exact ⟨address, value, writes⟩

/-- A step that writes changes the cell that it addresses, and no other one. -/
theorem Writes.after_heap (h : s.Writes address value) :
    ∃ cell, s.before.heap.address? address = some cell ∧
      s.after.heap = s.before.heap.write cell value := by
  obtain ⟨address', value', cell, writes, inside, heap⟩ := h.isWrite.exists_writes
  obtain ⟨rfl, rfl⟩ := h.unique writes
  exact ⟨cell, inside, heap⟩

/-- A step that fails, or is neither a store nor a read, leaves the heap alone. -/
theorem after_heap_of_not_isWrite (h : ¬s.IsWrite) : s.after.heap = s.before.heap := by
  refine (Machine.execute_heap_cases (s.before.record s.instruction) s.instruction).resolve_right ?_
  rintro ⟨completes, is⟩
  exact h ⟨s.stop_eq_none_iff.mpr completes, is⟩

end Step

/-! ## Values written last -/

/-- The value that was written last to an address by the steps of a course, or zero if none was. -/
inductive LastWritten (address : Int) (made : List Step) : Int → Prop
  | never (none : ∀ s ∈ made, ∀ value, ¬s.Writes address value) : LastWritten address made 0
  | written {earlier later : List Step} {s : Step} {value : Int}
      (split : made = earlier ++ s :: later) (writes : s.Writes address value)
      (none : ∀ s ∈ later, ∀ value, ¬s.Writes address value) : LastWritten address made value

namespace LastWritten

variable {address value other : Int} {made : List Step} {last : Step}

theorem nil_iff : LastWritten address [] value ↔ value = 0 := by
  constructor
  · intro h
    cases h with
    | never => rfl
    | written split => exact absurd split.symm (List.append_ne_nil_of_right_ne_nil _ nofun)
  · rintro rfl
    exact .never (List.forall_mem_nil _)

/-- The value written last is told by the last step if that writes, else by the steps before it. -/
theorem concat_iff : LastWritten address (made ++ [last]) value ↔
    last.Writes address value ∨
      (∀ value, ¬last.Writes address value) ∧ LastWritten address made value := by
  constructor
  · intro h
    cases h with
    | never none =>
      obtain ⟨before, still⟩ := List.forall_mem_append.mp none
      exact .inr ⟨still last List.mem_cons_self, .never before⟩
    | @written earlier later s _ split writes none =>
      rcases List.eq_nil_or_concat later with rfl | ⟨between, final, rfl⟩
      · obtain ⟨rfl, same⟩ := List.append_inj' split rfl
        cases same
        exact .inl writes
      · rw [List.concat_eq_append] at split none
        rw [← List.cons_append, ← List.append_assoc] at split
        obtain ⟨rfl, same⟩ := List.append_inj' split rfl
        cases same
        obtain ⟨before, still⟩ := List.forall_mem_append.mp none
        exact .inr ⟨still last List.mem_cons_self, .written rfl writes before⟩
  · rintro (writes | ⟨still, before⟩)
    · exact .written rfl writes (List.forall_mem_nil _)
    · have none {later : List Step} (none : ∀ s ∈ later, ∀ value, ¬s.Writes address value) :
          ∀ s ∈ later ++ [last], ∀ value, ¬s.Writes address value :=
        List.forall_mem_append.mpr ⟨none, List.forall_mem_singleton.mpr still⟩
      cases before with
      | never before => exact .never (none before)
      | @written earlier later s _ split writes before =>
        have split : made ++ [last] = earlier ++ s :: (later ++ [last]) := by
          rw [split, List.append_assoc, List.cons_append]
        exact .written split writes (none before)

theorem unique (h : LastWritten address made value) (h' : LastWritten address made other) :
    value = other := by
  induction made using List.reverseRecOn with
  | nil => rw [nil_iff.mp h, nil_iff.mp h']
  | append_singleton made last ih =>
    rw [concat_iff] at h h'
    rcases h with writes | ⟨still, before⟩ <;> rcases h' with writes' | ⟨still', before'⟩
    · exact (writes.unique writes').2
    · exact absurd writes (still' value)
    · exact absurd writes' (still other)
    · exact ih before before'

end LastWritten

/-! ## Lists of cells -/

namespace Heap

variable {h : Heap} {cell : Nat} {value : Int}

/-- A cell has one address. -/
theorem address?_inj {address other : Int} (inside : h.address? address = some cell)
    (inside' : h.address? other = some cell) : address = other :=
  (address?_eq_some inside).1.trans (address?_eq_some inside').1.symm

/-- The cells past the end of the heap hold zero. -/
def IsConfined (h : Heap) : Prop :=
  ∀ cell, h.size ≤ cell → h.read cell = 0

theorem isConfined_clear (h : Heap) : h.clear.IsConfined :=
  fun cell _ => read_blank h.size cell

theorem IsConfined.write {address : Int} (hc : h.IsConfined)
    (inside : h.address? address = some cell) (value : Int) :
    (h.write cell value).IsConfined := by
  intro other past
  have hlt := (address?_eq_some inside).2
  have past : h.size ≤ other := past
  rw [read_write, if_neg (by omega), hc other past]

/-- The cells that are listed are those that do not hold zero, with what they hold. -/
theorem mem_nonzero_iff : (cell, value) ∈ h.nonzero ↔ h.read cell = value ∧ value ≠ 0 := by
  unfold nonzero read
  rw [List.mem_filter, Std.TreeMap.mem_toList_iff_getElem?_eq_some,
    Std.TreeMap.getD_eq_getD_getElem?, decide_eq_true_iff]
  refine and_congr_left fun nonzero => ?_
  cases h.cells[cell]? with
  | none => simpa using nonzero.symm
  | some found => simp

/-- The cells are listed by ascending address. -/
theorem nonzero_ascending (h : Heap) : h.nonzero.Pairwise fun a b => a.1 < b.1 := by
  refine List.Pairwise.filter _ (h.cells.ordered_keys_toList.imp ?_)
  intro a b ordered
  exact Nat.compare_eq_lt.mp ordered

end Heap

/-! ## Courses -/

namespace Machine

variable {p : Program} {origin m : Machine} {made : List Step}

/-- Along every course of a machine that was fresh, a cell holds what was written there last, and
nothing is written past the end of the heap. -/
theorem Course.lastWritten (h : Course p origin made m) (fresh : origin.IsFresh) :
    m.heap.IsConfined ∧
      ∀ address cell, m.heap.address? address = some cell →
        LastWritten address made (m.heap.read cell) := by
  refine h.history (P := fun made m => m.heap.IsConfined ∧ ∀ address cell,
    m.heap.address? address = some cell → LastWritten address made (m.heap.read cell)) ?_ ?_
  · rw [← fresh]
    refine ⟨origin.heap.isConfined_clear, fun address cell _ => ?_⟩
    exact LastWritten.nil_iff.mpr (Heap.read_blank origin.heap.size cell)
  · rintro made s - - ⟨confined, before⟩
    by_cases write : s.IsWrite
    · obtain ⟨target, value, cell, writes, inside, heap⟩ := write.exists_writes
      rw [heap]
      refine ⟨confined.write inside value, fun address other found => LastWritten.concat_iff.mpr ?_⟩
      have found : s.before.heap.address? address = some other := found
      rw [Heap.read_write]
      split
      · next same =>
        subst same
        obtain rfl := Heap.address?_inj inside found
        exact .inl writes
      · next apart =>
        refine .inr ⟨fun value' writes' => apart ?_, before address other found⟩
        obtain ⟨rfl, -⟩ := writes.unique writes'
        exact Option.some.inj (inside.symm.trans found)
    · rw [Step.after_heap_of_not_isWrite write]
      refine ⟨confined, fun address cell found => LastWritten.concat_iff.mpr (.inr ⟨?_, ?_⟩)⟩
      · exact fun value writes => write writes.isWrite
      · exact before address cell found

/-- A retrieve that completes replaces an address by what its cell holds. -/
theorem execute_retrieve {m : Machine} {i : Instruction} (is : i.Is .retrieve)
    (completes : (m.execute i).stop = none) :
    ∃ address rest cell, m.stack = address :: rest ∧ m.heap.address? address = some cell ∧
      (m.execute i).machine.stack = m.heap.read cell :: rest := by
  obtain ⟨command, family⟩ := is
  simp only [execute, family, Command.family, executeHeap, command] at completes ⊢
  split at completes
  · next address rest stack =>
    split at completes
    · next cell inside => exact ⟨address, rest, cell, stack, inside, rfl⟩
    · cases completes
  · cases completes

/-- The heap is a memory, for whatever steps a machine makes since it was fresh. A retrieve that
completes replaces an address by the value that a store or a read that completed has written there
last, or by zero if none has. Such a step changes the one cell that it writes to, and no other step
changes any. The cells that do not hold zero, and no others, are listed with what they hold by
ascending address. -/
theorem heap_remembers (fresh : origin.IsFresh) (course : Course p origin made m) :
    (∀ earlier s later, made = earlier ++ s :: later →
      (s.instruction.Is .retrieve → s.stop = none →
        ∃ address rest value, s.before.stack = address :: rest ∧ s.after.stack = value :: rest ∧
          ∀ other, LastWritten address earlier other ↔ other = value) ∧
      ((∃ address value, s.Writes address value) ↔ s.IsWrite) ∧
      (∀ address value, s.Writes address value →
        ∃ cell, s.before.heap.address? address = some cell ∧
          s.after.heap = s.before.heap.write cell value) ∧
      (¬s.IsWrite → s.after.heap = s.before.heap)) ∧
    m.heap.nonzero.Pairwise (fun a b => a.1 < b.1) ∧
    ∀ cell value, (cell, value) ∈ m.heap.nonzero ↔
      cell < m.heap.size ∧ m.heap.read cell = value ∧ value ≠ 0 := by
  refine ⟨?_, m.heap.nonzero_ascending, ?_⟩
  · rintro earlier s later rfl
    refine ⟨fun is stops => ?_, Step.exists_writes_iff, fun _ _ h => h.after_heap,
      Step.after_heap_of_not_isWrite⟩
    obtain ⟨first, -, -⟩ := course_split_iff.mp course
    obtain ⟨address, rest, cell, stack, inside, after⟩ :=
      execute_retrieve is (s.stop_eq_none_iff.mp stops)
    have holds := (first.lastWritten fresh).2 address cell inside
    refine ⟨address, rest, _, stack, after, fun other => ⟨fun h => h.unique holds, ?_⟩⟩
    rintro rfl
    exact holds
  · intro cell value
    rw [Heap.mem_nonzero_iff]
    refine ⟨fun ⟨reads, nonzero⟩ => ⟨?_, reads, nonzero⟩, And.right⟩
    by_contra past
    have zero := (course.lastWritten fresh).1 cell (Nat.le_of_not_lt past)
    exact nonzero (reads.symm.trans zero)

/-- Stores five at the address zero, seven at the address one, and retrieves from zero. -/
def storeTwice : Program :=
  .ofList
    [⟨.stack, .push, some (.number 0), some ⟨"store.stl", 1, 1⟩⟩,
      ⟨.stack, .push, some (.number 5), some ⟨"store.stl", 1, 5⟩⟩,
      ⟨.heap, .store, none, some ⟨"store.stl", 1, 12⟩⟩,
      ⟨.stack, .push, some (.number 1), some ⟨"store.stl", 1, 15⟩⟩,
      ⟨.stack, .push, some (.number 7), some ⟨"store.stl", 1, 20⟩⟩,
      ⟨.heap, .store, none, some ⟨"store.stl", 1, 27⟩⟩,
      ⟨.stack, .push, some (.number 0), some ⟨"store.stl", 1, 30⟩⟩,
      ⟨.heap, .retrieve, none, some ⟨"store.stl", 1, 34⟩⟩]

/-- In a heap of one cell the second store fails, and the retrieve finds what the first one has
written. -/
theorem retrieved_past_failed_store :
    Program.parse "store.stl" .stl "SSSLSSSTSTLTTSSSSTLSSSTTTLTTSSSSLTTT" = .ok storeTwice ∧
      ∃ earlier s, Course storeTwice (start 1 false (.ofText "")) (earlier ++ s :: []) s.after ∧
        (∃ failed ∈ earlier, failed.instruction.Is .store ∧ failed.stop ≠ none) ∧
        s.instruction.Is .retrieve ∧ s.after.stack = [5, 7, 1] ∧ LastWritten 0 earlier 5 ∧
        (0, 5) ∈ s.after.heap.nonzero := by
  have course : Course storeTwice (start 1 false (.ofText "")) ([_, _, _, _, _, _, _] ++ [_]) _ :=
    .cons rfl (.cons rfl (.cons rfl (.cons rfl (.cons rfl (.cons rfl (.cons rfl (.cons rfl
      .nil)))))))
  obtain ⟨steps, -, listed⟩ := heap_remembers (isFresh_iff.mpr ⟨1, false, .ofText "", rfl⟩) course
  obtain ⟨address, rest, value, before, after, last⟩ := (steps _ _ _ rfl).1 ⟨rfl, rfl⟩ rfl
  obtain ⟨rfl, rfl⟩ := List.cons.inj before
  obtain ⟨rfl, -⟩ := List.cons.inj after
  exact ⟨rfl, _, _, course, ⟨_, List.mem_of_getElem? (i := 5) rfl, ⟨rfl, rfl⟩, nofun⟩, ⟨rfl, rfl⟩,
    rfl, (last 5).mpr rfl, (listed 0 5).mpr ⟨by decide, rfl, by decide⟩⟩

end Machine

end Whitespace
