import Whitespace.Proofs.Machine.History
import Whitespace.Proofs.Machine.Rules
import Whitespace.Proofs.Program.Linking

/-!
# Bounds of a machine

Along every history of a machine on the program of a text, the pointer stays within the program or
just past its end, calls are remembered at call instructions, numbers stay words, and the heap keeps
its cells. In particular a pointer never counts from the end of the program.

Results:
1. `Machine.perform_inBounds`: executing an instruction keeps a machine in bounds.
2. `Machine.inBounds_of_reachable`: every reachable machine is in bounds, and fetches from where its
   pointer is.
-/

namespace Whitespace

/-! ## Heaps of words -/

/-- A heap of a given size in which nothing is stored outside of its cells, and only words. -/
structure Heap.InBounds (size : Nat) (h : Heap) : Prop where
  size_eq : h.size = size
  stored : ∀ cell ∈ h.cells, cell < size
  word : ∀ cell, Word.InRange (h.read cell)

namespace Heap

theorem address?_eq_some {h : Heap} {address : Int} {cell : Nat}
    (ha : h.address? address = some cell) : address = cell ∧ cell < h.size := by
  unfold address? at ha
  split at ha
  · cases ha
    omega
  · cases ha

theorem read_blank (size cell : Nat) : (blank size).read cell = 0 :=
  Std.TreeMap.getD_emptyc

theorem read_write (h : Heap) (address cell : Nat) (value : Int) :
    (h.write address value).read cell = if address = cell then value else h.read cell := by
  unfold write read
  simp only [Std.TreeMap.getD_insert, Std.LawfulEqCmp.compare_eq_iff_eq]

theorem inBounds_blank (size : Nat) : (blank size).InBounds size := by
  refine ⟨rfl, ?_, ?_⟩
  · intro cell hc
    exact absurd hc Std.TreeMap.not_mem_emptyc
  · intro cell
    rw [read_blank]
    decide

theorem InBounds.write {h : Heap} {size : Nat} (hb : h.InBounds size) {address : Int} {cell : Nat}
    (ha : h.address? address = some cell) {value : Int} (hv : Word.InRange value) :
    (h.write cell value).InBounds size := by
  refine ⟨hb.size_eq, ?_, ?_⟩
  · intro other ho
    rcases Std.TreeMap.mem_insert.mp ho with he | ho
    · cases Std.LawfulEqCmp.eq_of_compare he
      rw [← hb.size_eq]
      exact (address?_eq_some ha).2
    · exact hb.stored other ho
  · intro other
    rw [read_write]
    split
    · exact hv
    · exact hb.word other

end Heap

/-! ## Positions -/

namespace Program

theorem at?_eq_some {p : Program} {position : Int} {i : Instruction}
    (h : p.at? position = some i) : 0 ≤ position ∧ position < p.size ∧ i ∈ p.instructions := by
  unfold at? at h
  split at h
  · cases h
  · next hn =>
    obtain ⟨hlt, rfl⟩ := Array.getElem?_eq_some_iff.mp h
    refine ⟨by omega, ?_, Array.getElem_mem hlt⟩
    unfold size
    omega

/-- A pointer that is not negative leads to the instruction at its position. -/
theorem fetch?_eq_at? (p : Program) {pointer : Int} (h : 0 ≤ pointer) :
    p.fetch? pointer = p.at? pointer := by
  unfold fetch?
  rw [if_neg (by omega)]

theorem mem_of_fetch? {p : Program} {pointer : Int} {i : Instruction}
    (h : p.fetch? pointer = some i) : i ∈ p.instructions :=
  (at?_eq_some h).2.2

theorem exists_at? (p : Program) {position : Int} (h : 0 ≤ position) (hlt : position < p.size) :
    ∃ i, p.at? position = some i := by
  unfold size at hlt
  unfold at?
  rw [if_neg (by omega), Array.getElem?_eq_getElem (by omega)]
  exact ⟨_, rfl⟩

end Program

namespace Machine

variable {Notes : Type}

/-- A machine within the bounds of its program, its words and its heap. -/
structure InBounds (p : Program) (heapSize : Nat) (m : Machine) : Prop where
  pointer_nonneg : 0 ≤ m.pointer
  pointer_le : m.pointer ≤ p.size
  calls : ∀ position ∈ m.calls, ∃ i, p.at? position = some i ∧ i.Is .call
  stack : ∀ value ∈ m.stack, Word.InRange value
  heap : m.heap.InBounds heapSize

/-! ## Words -/

theorem operation?_inRange {c : Command} {operation : Int → Int → Int}
    (h : operation? c = some operation) (left right : Int) :
    Word.InRange (operation left right) := by
  cases c <;> cases h <;> exact Word.wrap_inRange _

theorem reader?_inRange {c : Command} {read : Console → Except Raised String × Console}
    {word : Instruction → String → Except Stop Int} (h : c.reader? = some (read, word))
    {i : Instruction} {text : String} {value : Int} (hw : word i text = .ok value) :
    Word.InRange value := by
  rcases reader?_cases h text with ⟨other, hr, ho⟩ | ⟨problem, hp⟩ | ⟨digits, hd⟩
  · rw [ho] at hw
    cases hw
    exact hr
  · rw [hp] at hw
    cases hw
  · rw [hd] at hw
    cases hw

/-! ## What executing keeps -/

section

variable {p : Program} {m : Machine} {i : Instruction}

@[simp] theorem output_stack (m : Machine) (text : String) : (m.output text).stack = m.stack := by
  rw [output_eq]

@[simp] theorem output_calls (m : Machine) (text : String) : (m.output text).calls = m.calls := by
  rw [output_eq]

@[simp] theorem output_heap (m : Machine) (text : String) : (m.output text).heap = m.heap := by
  rw [output_eq]

@[simp] theorem output_pointer (m : Machine) (text : String) :
    (m.output text).pointer = m.pointer := by
  rw [output_eq]

theorem fromBottom?_mem {index value : Int} (h : m.fromBottom? index = some value) :
    value ∈ m.stack := by
  unfold fromBottom? at h
  split at h
  · cases h
  · exact List.mem_reverse.mp (List.mem_of_getElem? h)

/-- Executing puts nothing but words on the stack. -/
theorem execute_stack_inRange (hi : ∀ value, i.number? = some value → Word.InRange value)
    (hs : ∀ value ∈ m.stack, Word.InRange value) (hh : ∀ cell, Word.InRange (m.heap.read cell)) :
    ∀ value ∈ (m.execute i).machine.stack, Word.InRange value := by
  -- What a command leaves of the stack, it leaves from the bottom up.
  have htail {values : List Int} {n : Nat} (hd : values = m.stack.drop n) :
      ∀ value ∈ values, Word.InRange value := by
    subst hd
    intro value hv
    exact hs value (List.mem_of_mem_drop hv)
  have h := executes m i
  generalize m.execute i = e at h ⊢
  cases h with
  | push is operand => exact List.forall_mem_cons.mpr ⟨hi _ operand, hs⟩
  | duplicate is stack => exact List.forall_mem_cons.mpr ⟨hs _ (by simp [stack]), hs⟩
  | copyNth is operand inside => exact List.forall_mem_cons.mpr ⟨hs _ (fromBottom?_mem inside), hs⟩
  | swap is stack =>
    rw [stack, List.forall_mem_cons, List.forall_mem_cons] at hs
    exact List.forall_mem_cons.mpr ⟨hs.2.1, List.forall_mem_cons.mpr ⟨hs.1, hs.2.2⟩⟩
  | slide is operand stack =>
    refine List.forall_mem_cons.mpr ⟨hs _ (by simp [stack]), ?_⟩
    exact htail (by rw [stack, ← List.drop_succ_cons])
  | arithmetic family command stack =>
    refine List.forall_mem_cons.mpr ⟨operation?_inRange command _ _, ?_⟩
    exact htail (n := 2) (by simp [stack])
  | retrieve is stack => exact List.forall_mem_cons.mpr ⟨hh _, htail (n := 1) (by simp [stack])⟩
  | store is stack => exact htail (n := 2) (by simp [stack])
  | discard is stack | jumpIf _ _ _ stack | unresolvedIf _ _ _ stack | skip _ _ _ stack
  | readFailed _ _ stack | readRefused _ _ stack | read _ _ stack =>
    exact htail (n := 1) (by simp [stack])
  | outputCharacter is stack | outputNumber is stack =>
    exact htail (n := 1) (by simp [stack])
  | _ => exact hs

/-- Executing stores nothing but words, and nothing outside of the heap. -/
theorem execute_heap_inBounds {size : Nat} (hs : ∀ value ∈ m.stack, Word.InRange value)
    (hh : m.heap.InBounds size) : (m.execute i).machine.heap.InBounds size := by
  have h := executes m i
  generalize m.execute i = e at h ⊢
  cases h with
  | store is stack inside => exact hh.write inside (hs _ (by simp [stack]))
  | read family command stack inside result accepted =>
    exact hh.write inside (reader?_inRange command accepted)
  | outputCharacter | outputNumber => simpa using hh
  | _ => exact hh

/-- Executing remembers calls where they stand. -/
theorem execute_calls (hi : p.at? m.pointer = some i)
    (hc : ∀ position ∈ m.calls, ∃ j, p.at? position = some j ∧ j.Is .call) :
    ∀ position ∈ (m.execute i).machine.calls, ∃ j, p.at? position = some j ∧ j.Is .call := by
  have h := executes m i
  generalize m.execute i = e at h ⊢
  cases h with
  | call is => exact List.forall_mem_cons.mpr ⟨⟨i, hi, is⟩, hc⟩
  | ret is stack =>
    rw [stack, List.forall_mem_cons] at hc
    exact hc.2
  | outputCharacter | outputNumber => simpa using hc
  | _ => exact hc

/-- Executing leaves the pointer at an instruction: the one executed, a mark, or a call. -/
theorem execute_pointer (hw : p.WellFormed) (hi : p.at? m.pointer = some i)
    (hc : ∀ position ∈ m.calls, ∃ j, p.at? position = some j ∧ j.Is .call) :
    ∃ j, p.at? (m.execute i).machine.pointer = some j := by
  have hmem := (Program.at?_eq_some hi).2.2
  have htarget {name : String} {target : Int}
      (operand : i.operand = some (.label name (some target))) :
      ∃ j, p.at? target = some j := by
    obtain ⟨mark, hm, -⟩ := hw.target i hmem name target operand
    exact ⟨mark, hm⟩
  have h := executes m i
  generalize m.execute i = e at h ⊢
  cases h with
  | call is operand => exact htarget operand
  | jump is operand => exact htarget operand
  | jumpIf family command operand => exact htarget operand
  | ret is stack =>
    obtain ⟨j, hj, -⟩ := hc _ (by rw [stack]; exact List.mem_cons_self)
    exact ⟨j, hj⟩
  | outputCharacter | outputNumber => exact ⟨i, by simpa using hi⟩
  | _ => exact ⟨i, hi⟩

/-! ## Histories -/

variable {heapSize : Nat}

theorem InBounds.at?_pointer (hb : m.InBounds p heapSize) (hn : m.next p = .instruction i) :
    p.at? m.pointer = some i := by
  rw [← p.fetch?_eq_at? hb.pointer_nonneg]
  exact (next_eq_instruction hn).2.2

theorem InBounds.isConsistent (hb : m.InBounds p heapSize) (hw : p.WellFormed)
    (hn : m.next p = .instruction i) : i.IsConsistent :=
  hw.consistent i (Program.at?_eq_some (hb.at?_pointer hn)).2.2

/-- Executing an instruction keeps a machine in bounds. -/
theorem perform_inBounds (hw : p.WellFormed) (hb : m.InBounds p heapSize)
    (hn : m.next p = .instruction i) : (m.perform i).machine.InBounds p heapSize := by
  have hi : p.at? (m.record i).pointer = some i := hb.at?_pointer hn
  -- The pointer is advanced from an instruction of the program, so at most to just past its end.
  obtain ⟨j, hj⟩ := execute_pointer hw hi hb.calls
  obtain ⟨hnonneg, hlt, -⟩ := Program.at?_eq_some hj
  exact {
    pointer_nonneg := Int.le_add_one hnonneg
    pointer_le := Int.add_one_le_of_lt hlt
    calls := execute_calls hi hb.calls
    stack := execute_stack_inRange (hw.number i (Program.at?_eq_some hi).2.2) hb.stack hb.heap.word
    heap := execute_heap_inBounds hb.stack hb.heap }

theorem inBounds_start (p : Program) (heapSize : Nat) (silent : Bool) (console : Console) :
    (start heapSize silent console).InBounds p heapSize where
  pointer_nonneg := Int.le_refl 0
  pointer_le := Int.natCast_nonneg p.size
  calls := fun _ h => by cases h
  stack := fun _ h => by cases h
  heap := Heap.inBounds_blank heapSize

theorem InBounds.reset (hb : m.InBounds p heapSize) : m.reset.InBounds p heapSize := by
  rw [reset_eq_start, hb.heap.size_eq]
  exact inBounds_start p heapSize m.silent m.console

/-- A machine in bounds fetches its next instruction from where its pointer is. -/
theorem InBounds.next (hb : m.InBounds p heapSize) (hn : m.next p ≠ .halted) :
    m.pointer < p.size ∧ ∃ i, p.at? m.pointer = some i ∧ m.next p = .instruction i := by
  unfold Machine.next at hn ⊢
  split at hn
  · exact absurd rfl hn
  · next hc =>
    have hlt : m.pointer < p.size := by omega
    obtain ⟨i, hi⟩ := p.exists_at? hb.pointer_nonneg hlt
    refine ⟨hlt, i, hi, ?_⟩
    rw [if_neg hc, p.fetch?_eq_at? hb.pointer_nonneg, hi]

end

/-- Along every history of a well formed program the machine stays in bounds. -/
theorem Reachable.inBounds {r : Registry Notes} {p : Program} (hw : p.WellFormed) {heapSize : Nat}
    {silent : Bool} {console : Console} {m : Machine}
    (reachable : Reachable r p (start heapSize silent console) m) : m.InBounds p heapSize := by
  refine reachable.invariant (inBounds_start p heapSize silent console) ?_ ?_
  · intro m i hm hn
    exact perform_inBounds hw hm hn
  · intro m hm
    exact hm.reset

/-- Whatever is done with a machine on the program of a text, it stays in bounds, and the next
instruction is the one at its pointer. -/
theorem inBounds_of_reachable {file text : String} {encoding : Encoding} {p : Program}
    (parsed : Program.parse file encoding text = .ok p) (r : Registry Notes) (heapSize : Nat)
    (silent : Bool) (console : Console) {m : Machine}
    (reachable : Reachable r p (start heapSize silent console) m) :
    m.InBounds p heapSize ∧
      (m.next p ≠ .halted →
        m.pointer < p.size ∧ ∃ i, p.at? m.pointer = some i ∧ m.next p = .instruction i) := by
  have hb := reachable.inBounds (Program.wellFormed_of_parse parsed)
  exact ⟨hb, hb.next⟩

/-- A call of the label `1`, its mark, and an exit: after the call the machine stands behind the
mark and remembers the call. -/
theorem called_inBounds :
    ∃ p m, Program.parse "call.stl" .stl "LSTTLLSSTLLLL" = .ok p ∧
      Reachable (.empty : Registry Unit) p (start 4 false (.ofText "")) m ∧
      m.pointer = 2 ∧ m.calls = [0] ∧ m.InBounds p 4 ∧
      ∃ i, p.at? m.pointer = some i ∧ m.next p = .instruction i := by
  have parsed : Program.parse "call.stl" .stl "LSTTLLSSTLLLL" = .ok (.ofList
      [⟨.flow, .call, some (.label "1" (some 1)), some ⟨"call.stl", 1, 1⟩⟩,
        ⟨.flow, .mark, some (.label "1" (some 1)), some ⟨"call.stl", 1, 6⟩⟩,
        ⟨.flow, .exit, none, some ⟨"call.stl", 1, 11⟩⟩]) := rfl
  refine ⟨_, _, parsed, .step .origin ⟨#[], ()⟩, rfl, rfl, ?_⟩
  obtain ⟨inBounds, fetches⟩ := inBounds_of_reachable parsed (.empty : Registry Unit) 4 false
    (.ofText "") (.step .origin ⟨#[], ()⟩)
  exact ⟨inBounds, (fetches nofun).2⟩

end Machine

end Whitespace
