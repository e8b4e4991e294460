import Whitespace.Proofs.Machine.Memory
import Whitespace.Proofs.Machine.NumberLines

/-!
# Reading back what was written

What a machine writes, it can read back. A number is written as a numeral, which as a line of input
denotes that number, whatever blanks are around it. A character is written as itself, and read as
its code point. So a character that was read, and not overwritten since, can be written again.

Results:
1. `Command.shows_of_output`, `Command.stores_of_word`: what an output and a read lead to.
2. `Machine.Course.keeps_cell`: a cell keeps its value as long as no step writes to it.
3. `Machine.output_reads_back`: numbers and characters are read back as they were written.
-/

namespace Whitespace

/-- Wherever the command is next on a stack with the value on top, the step completes, takes the
value and shows the text, unless the machine is silent. -/
def Command.Shows (c : Command) (value : Int) (text : String) : Prop :=
  ∀ (p : Program) (m : Machine) (i : Instruction) (rest : List Int),
    m.next p = .instruction i → i.Is c → m.stack = value :: rest →
      m.step p = .completed
        { m.record i with
          stack := rest
          console := m.console.emitUnless m.silent text
          pointer := m.pointer + 1 }

/-- Wherever the command is next on a stack with a valid address on top, and finds the text in the
input, the step completes, takes the address and stores the value there. -/
def Command.Stores (c : Command) (text : String) (value : Int) : Prop :=
  ∀ (p : Program) (m : Machine) (i : Instruction) (address : Int) (rest : List Int) read word,
    m.next p = .instruction i → i.Is c → c.reader? = some (read, word) →
      m.stack = address :: rest → 0 ≤ address ∧ address < m.heap.size →
      (read m.console).1 = .ok text →
        m.step p = .completed
          { m.record i with
            stack := rest
            console := (read m.console).2
            heap := m.heap.write address.toNat value
            pointer := m.pointer + 1 }

/-- The step completes, and reads the character into the cell of the address. -/
structure Step.ReadsCharacter (s : Step) (address : Int) (c : Char) : Prop where
  is : s.instruction.Is .readCharacter
  completes : s.stop = none
  top : ∃ rest, s.before.stack = address :: rest
  reads : ∃ text more, s.before.console.readChar.1 = .ok text ∧ text.toList = c :: more

/-! ## Outputs and reads -/

namespace Command

variable {c : Command} {value : Int} {text : String}

/-- A command shows a text if all that it comes to is to drop the value and to output the text. -/
theorem shows_of_output
    (rule : ∀ (m : Machine) (i : Instruction) (rest : List Int), i.Is c → m.stack = value :: rest →
      Machine.Executes m i (.completed ({ m with stack := rest }.output text))) :
    c.Shows value text := by
  intro p m i rest next is stack
  rw [Machine.step_of_completed next (rule (m.record i) i rest is stack),
    Machine.output_eq_emitUnless]
  rfl

theorem shows_number (n : Int) : outputNumber.Shows n (Decimal.ofInt n) :=
  shows_of_output fun _ _ _ is stack => .outputNumber is stack

theorem shows_character (c : Char) : outputCharacter.Shows c.toNat (String.singleton c) := by
  have scalar : c.toNat < 0xD800 ∨ 0xDFFF < c.toNat ∧ c.toNat < 0x110000 := c.valid
  have inside : ¬((c.toNat : Int) < 0 ∨ Machine.maxCodePoint < c.toNat) := by
    rw [Machine.maxCodePoint]
    omega
  have whole : Machine.isSurrogate c.toNat = false := by
    simp only [Machine.isSurrogate, Bool.and_eq_false_iff, decide_eq_false_iff_not]
    omega
  refine shows_of_output fun m i rest is stack => ?_
  have rule := Machine.Executes.outputCharacter is stack inside whole
  rwa [Int.toNat_natCast, Char.ofNat_toNat] at rule

theorem family_of_reader? {read : Console → Except Raised String × Console}
    {word : Instruction → String → Except Stop Int} (command : c.reader? = some (read, word)) :
    c.family = .io := by
  cases c <;> first | rfl | cases command

/-- A command that reads stores the word that the text denotes to it. -/
theorem stores_of_word {read : Console → Except Raised String × Console}
    {word : Instruction → String → Except Stop Int} (command : c.reader? = some (read, word))
    (accepted : ∀ i, word i text = .ok value) : c.Stores text value := by
  intro p m i address rest read' word' next is command' stack valid result
  cases command.symm.trans command'
  have family : i.family = .io := is.2.trans (family_of_reader? command)
  exact Machine.step_of_accepted next family (is.1.symm ▸ command) stack valid result (accepted i)

theorem stores_number {n : Int} (range : Word.InRange n) {before after : List Char}
    (blank : ∀ c ∈ before, Text.isBlank c = true) (blank' : ∀ c ∈ after, Text.isBlank c = true) :
    readNumber.Stores (String.ofList (before ++ (Decimal.ofInt n).toList ++ after)) n := by
  have denotes := Decimal.denotes_ofInt n
  have trims : Text.Trims (String.ofList (before ++ (Decimal.ofInt n).toList ++ after)).toList
      (Decimal.ofInt n).toList := by
    rw [String.toList_ofList]
    exact denotes.trims blank blank'
  have few : (Decimal.ofInt n).toList.length ≤ Decimal.digitLimit :=
    (Decimal.length_ofInt_le range).trans (by decide)
  exact stores_of_word rfl (Machine.readWord_of_denotes (Decimal.not_isOverlong_of_trims trims few)
    ⟨_, trims, denotes⟩ range)

theorem stores_character (c : Char) (more : String) :
    readCharacter.Stores (String.singleton c ++ more) c.toNat := by
  refine stores_of_word rfl fun i => ?_
  rw [Machine.readCode, String.toList_append, String.toList_singleton]
  rfl

end Command

/-! ## Characters in the heap -/

variable {p : Program} {m m' : Machine} {made between : List Step} {s r : Step} {address : Int}
  {rest : List Int} {c : Char}

/-- A cell keeps its value as long as no step writes to it. -/
theorem Machine.Course.keeps_cell {cell : Nat} (h : Course p m made m')
    (inside : m.heap.address? address = some cell)
    (untouched : ∀ s ∈ made, ∀ value, ¬s.Writes address value) :
    m'.heap.address? address = some cell ∧ m'.heap.read cell = m.heap.read cell := by
  refine h.history (P := fun made m' => (∀ s ∈ made, ∀ value, ¬s.Writes address value) →
    m'.heap.address? address = some cell ∧ m'.heap.read cell = m.heap.read cell)
    (fun _ => ⟨inside, rfl⟩) ?_ untouched
  rintro made s - - ih untouched
  obtain ⟨before, still⟩ := List.forall_mem_append.mp untouched
  obtain ⟨found, kept⟩ := ih before
  by_cases write : s.IsWrite
  · obtain ⟨target, value, other, writes, reaches, heap⟩ := write.exists_writes
    have apart : other ≠ cell := by
      rintro rfl
      obtain rfl := Heap.address?_inj reaches found
      exact still s List.mem_cons_self value writes
    rw [heap, Heap.read_write, if_neg apart]
    exact ⟨found, kept⟩
  · rw [Step.after_heap_of_not_isWrite write]
    exact ⟨found, kept⟩

namespace Step

theorem ReadsCharacter.writes (h : s.ReadsCharacter address c) : s.Writes address c.toNat := by
  obtain ⟨rest, stack⟩ := h.top
  obtain ⟨text, more, read, first⟩ := h.reads
  exact .readCharacter h.is h.completes stack read first

/-- A character that was read, and not overwritten since, is retrieved as its code point. -/
theorem ReadsCharacter.retrieved (h : s.ReadsCharacter address c)
    (course : Machine.Course p s.after between r.before)
    (untouched : ∀ t ∈ between, ∀ value, ¬t.Writes address value)
    (is : r.instruction.Is .retrieve) (stack : r.before.stack = address :: rest) :
    r.stop = none ∧ r.after.stack = (c.toNat : Int) :: rest := by
  obtain ⟨cell, inside, heap⟩ := h.writes.after_heap
  have found : s.after.heap.address? address = some cell := by
    rw [heap]
    exact inside
  obtain ⟨found, kept⟩ := course.keeps_cell found untouched
  have retrieves : r.before.perform r.instruction = _ :=
    Machine.perform_of_completed (.retrieve is stack found)
  have holds : r.before.heap.read cell = c.toNat := by
    rw [kept, heap, Heap.read_write, if_pos rfl]
  rw [stop, after, retrieves]
  exact ⟨rfl, congrArg (· :: rest) holds⟩

end Step

namespace Machine

/-- What a machine writes, it can read back. The text that is shown for a word, with any blanks
around it, is a line of which the word is stored. The text that is shown for a character is read and
stored as its code point, also if more text is read along with it. And a character that was read
into a cell to which nothing else was written since is retrieved as the code point for which that
character is shown. -/
theorem output_reads_back :
    (∀ n, Word.InRange n → Command.outputNumber.Shows n (Decimal.ofInt n) ∧
      ∀ before after, (∀ c ∈ before, Text.isBlank c = true) →
        (∀ c ∈ after, Text.isBlank c = true) → Command.readNumber.Stores
          (String.ofList (before ++ (Decimal.ofInt n).toList ++ after)) n) ∧
    ∀ c : Char, Command.outputCharacter.Shows c.toNat (String.singleton c) ∧
      (∀ more, Command.readCharacter.Stores (String.singleton c ++ more) c.toNat) ∧
      ∀ (p : Program) (s r : Step) (between : List Step) (address : Int) (rest : List Int),
        s.ReadsCharacter address c → Course p s.after between r.before →
          (∀ t ∈ between, ∀ value, ¬t.Writes address value) →
            r.instruction.Is .retrieve → r.before.stack = address :: rest →
              r.stop = none ∧ r.after.stack = (c.toNat : Int) :: rest := by
  refine ⟨fun n range => ⟨Command.shows_number n, fun before after blank blank' => ?_⟩,
    fun c => ⟨Command.shows_character c, Command.stores_character c, ?_⟩⟩
  · exact Command.stores_number range blank blank'
  · intro p s r between address rest reads course untouched is stack
    exact reads.retrieved course untouched is stack

def keepCharacter : Program :=
  .ofList [⟨.io, .readCharacter, none, none⟩, ⟨.stack, .push, some (.number 0), none⟩,
    ⟨.heap, .retrieve, none, none⟩]

/-- The step of `keepCharacter` that reads the character, into the only cell. -/
def readsEmoji : Step :=
  ⟨(start 1 false (.ofText "😀!")).push 0, ⟨.io, .readCharacter, none, none⟩⟩

/-- The least word and a character past the surrogates are read back. -/
theorem least_word_and_emoji_read_back :
    (Command.outputNumber.Shows (-2147483648) "-2147483648" ∧
      Command.readNumber.Stores "\u00a0-2147483648\n" (-2147483648)) ∧
    (Command.outputCharacter.Shows 0x1F600 "😀" ∧ Command.readCharacter.Stores "😀" 0x1F600) ∧
    ∃ (r : Step) (between : List Step), Course keepCharacter readsEmoji.after between r.before ∧
      r.instruction.Is .retrieve ∧ r.stop = none ∧ r.after.stack = [0x1F600] := by
  obtain ⟨numbers, characters⟩ := output_reads_back
  obtain ⟨shows, stores⟩ := numbers (-2147483648) (by decide)
  have least : Decimal.ofInt (-2147483648) = "-2147483648" := by decide
  rw [least] at shows stores
  have blank : ∀ c ∈ ['\u00a0'], Text.isBlank c = true := List.forall_mem_singleton.mpr rfl
  have blank' : ∀ c ∈ ['\n'], Text.isBlank c = true := List.forall_mem_singleton.mpr rfl
  refine ⟨⟨shows, stores ['\u00a0'] ['\n'] blank blank'⟩, ?_⟩
  obtain ⟨shows, stores, retrieved⟩ := characters '😀'
  refine ⟨⟨shows, stores ""⟩, ?_⟩
  have reads : readsEmoji.ReadsCharacter 0 '😀' :=
    ⟨⟨rfl, rfl⟩, rfl, ⟨_, rfl⟩, String.singleton '😀', [], rfl, String.toList_singleton _⟩
  have course : Course keepCharacter readsEmoji.after
      [⟨_, ⟨.stack, .push, some (.number 0), none⟩⟩] _ := .cons rfl .nil
  have untouched : ∀ t ∈ [(⟨readsEmoji.after, ⟨.stack, .push, some (.number 0), none⟩⟩ : Step)],
      ∀ value, ¬t.Writes 0 value := by
    intro t ht value writes
    obtain rfl := List.mem_singleton.mp ht
    cases writes with
    | store is | readCharacter is | readNumber is => cases is.1
  obtain ⟨completes, stack⟩ := retrieved keepCharacter readsEmoji
    ⟨_, ⟨.heap, .retrieve, none, none⟩⟩ _ 0 [] reads course untouched ⟨rfl, rfl⟩ rfl
  exact ⟨_, _, course, ⟨rfl, rfl⟩, completes, stack⟩

end Machine

end Whitespace
