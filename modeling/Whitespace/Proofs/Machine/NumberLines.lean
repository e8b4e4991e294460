import Whitespace.Proofs.Machine.Decimals

/-!
# Number lines

A number is read from a line of its own. The line is accepted exactly if it denotes a word. Any
other line is refused for one reason: it is the end of the input, or it denotes no number, or the
number that it denotes is too large. Its address is taken from the stack all the same, and nothing
else changes.

Results:
1. `Decimal.Refuses.unique`: a line is refused for one reason.
2. `Machine.readWord_of_denotes`, `Machine.exists_refuses`: the verdict on a line.
3. `Machine.step_of_accepted`, `Machine.step_of_refused`: the steps that read.
4. `Machine.number_line_stored_iff`: the step that reads a number.
-/

namespace Whitespace

/-- `Refuses line problem`: the line is not accepted as a word, for this reason. A line without
characters is the end of the input, one of blanks only is not. -/
inductive Decimal.Refuses (line : String) : InputProblem → Prop
  | endOfInput (empty : line = "") : Refuses line .endOfInput
  | notAnInteger {core : List Char} (nonempty : line ≠ "") (trims : Text.Trims line.toList core)
      (no : ∀ n, ¬Denotes core n) : Refuses line (.notAnInteger (String.ofList core))
  | outOfRange {n : Int} (denotes : LineDenotes line n) (outside : ¬Word.InRange n) :
      Refuses line (.outOfRange n)

variable {line : String} {n : Int}

namespace Decimal

theorem not_lineDenotes_empty : ¬LineDenotes "" n := by
  rw [lineDenotes_iff]
  rintro ⟨numeral, read, -⟩
  cases read

theorem Refuses.unique {problem other : InputProblem} (h : Refuses line problem)
    (h' : Refuses line other) : problem = other := by
  cases h with
  | endOfInput empty =>
    cases h' with
    | endOfInput => rfl
    | notAnInteger nonempty => exact absurd empty nonempty
    | outOfRange denotes => exact absurd (empty ▸ denotes) not_lineDenotes_empty
  | notAnInteger nonempty trims no =>
    cases h' with
    | endOfInput empty => exact absurd empty nonempty
    | notAnInteger _ trims' => rw [← trims.eq, ← trims'.eq]
    | outOfRange denotes =>
      obtain ⟨core, trims', denotes⟩ := denotes
      obtain rfl := trims.eq.symm.trans trims'.eq
      exact absurd denotes (no _)
  | outOfRange denotes =>
    cases h' with
    | endOfInput empty => exact absurd (empty ▸ denotes) not_lineDenotes_empty
    | notAnInteger _ trims no =>
      obtain ⟨core, trims', denotes⟩ := denotes
      obtain rfl := trims.eq.symm.trans trims'.eq
      exact absurd denotes (no _)
    | outOfRange denotes' => rw [denotes.unique denotes']

end Decimal

namespace Machine

variable {p : Program} {m : Machine} {i : Instruction} {address : Int} {rest : List Int}

/-! ## Verdicts on lines -/

theorem readWord_of_denotes (short : ∀ digits, ¬Decimal.IsOverlong line digits)
    (denotes : Decimal.LineDenotes line n) (range : Word.InRange n) (i : Instruction) :
    readWord i line = .ok n := by
  obtain ⟨numeral, read, rfl⟩ := Decimal.lineDenotes_iff.mp denotes
  have few : ¬Decimal.digitLimit < numeral.digits.length :=
    fun many => short _ ⟨many, numeral, read, rfl⟩
  rw [readWord_of_numeral read, if_neg few, if_pos range]

/-- A line that denotes no word is refused, and the reader says why. -/
theorem exists_refuses (short : ∀ digits, ¬Decimal.IsOverlong line digits)
    (no : ¬∃ n, Decimal.LineDenotes line n ∧ Word.InRange n) :
    ∃ problem, Decimal.Refuses line problem ∧
      ∀ i, readWord i line = .error (.fault (.ofFault (.input i problem))) := by
  cases read : Decimal.Numeral.ofChars? (Text.trim line.toList) with
  | none =>
    by_cases empty : line = ""
    · exact ⟨_, .endOfInput empty, fun i => by rw [readWord, if_pos empty]⟩
    · refine ⟨_, .notAnInteger empty (Text.trims_trim _) fun n denotes => ?_, fun i => ?_⟩
      · obtain ⟨numeral, read', -⟩ := Decimal.denotes_iff.mp denotes
        cases read.symm.trans read'
      · rw [readWord, if_neg empty]
        simp only [read]
  | some numeral =>
    have denotes : Decimal.LineDenotes line numeral.value :=
      Decimal.lineDenotes_iff.mpr ⟨numeral, read, rfl⟩
    have few : ¬Decimal.digitLimit < numeral.digits.length :=
      fun many => short _ ⟨many, numeral, read, rfl⟩
    have outside : ¬Word.InRange numeral.value := fun range => no ⟨_, denotes, range⟩
    exact ⟨_, .outOfRange denotes outside, fun i => by
      rw [readWord_of_numeral read, if_neg few, if_neg outside]⟩

/-! ## Steps that read -/

section

variable {read : Console → Except Raised String × Console}
  {word : Instruction → String → Except Stop Int} {text : String}
  (next : m.next p = .instruction i) (family : i.family = .io)
  (command : i.command.reader? = some (read, word)) (stack : m.stack = address :: rest)
  (valid : 0 ≤ address ∧ address < m.heap.size) (result : (read m.console).1 = .ok text)

include next family command stack valid result

/-- A step that reads a text, and accepts it. -/
theorem step_of_accepted {value : Int} (accepted : word i text = .ok value) :
    m.step p = .completed
      { m.record i with
        stack := rest
        console := (read m.console).2
        heap := m.heap.write address.toNat value
        pointer := m.pointer + 1 } := by
  have inside : m.heap.address? address = some address.toNat := if_pos valid
  exact step_of_completed next
    (.read family command stack inside (Prod.ext result rfl) accepted)

/-- A step that reads a text, and refuses it. -/
theorem step_of_refused {stop : Stop} (refused : word i text = .error stop) :
    m.step p = .stopped
      { m.record i with
        stack := rest
        console := (read m.console).2
        pointer := m.pointer + 1 } (stop.atStep m.pointer m.executed) := by
  have inside : m.heap.address? address = some address.toNat := if_pos valid
  exact step_of_stopped next
    (.readRefused family command stack inside (Prod.ext result rfl) refused)

end

/-- The machine after a step that has taken an address from the stack and a line of input. -/
def tookLine (m : Machine) (i : Instruction) (rest : List Int) : Machine :=
  { m.record i with
    stack := rest
    console := m.console.readLine.2
    pointer := m.pointer + 1 }

/-- A step that reads a number takes its address and a line. The number is stored exactly if the
line, without the blanks around it, is an optional sign and some ASCII digits that stand for it, and
it is a word. Any other line is refused for its one reason, and nothing is stored. Lines of more
digits than are converted are left out. -/
theorem number_line_stored_iff (next : m.next p = .instruction i) (is : i.Is .readNumber)
    (stack : m.stack = address :: rest) (valid : 0 ≤ address ∧ address < m.heap.size)
    (read : m.console.readLine.1 = .ok line)
    (short : ∀ digits, ¬Decimal.IsOverlong line digits) :
    (∀ n, m.step p =
        .completed { m.tookLine i rest with heap := m.heap.write address.toNat n } ↔
      Decimal.LineDenotes line n ∧ Word.InRange n) ∧
    ((¬∃ n, Decimal.LineDenotes line n ∧ Word.InRange n) →
      ∃ problem, (∀ other, Decimal.Refuses line other ↔ other = problem) ∧
        m.step p = .stopped (m.tookLine i rest)
          (.fault ⟨.input i problem, some m.pointer, some m.executed, none⟩)) := by
  have command : i.command.reader? = some (Console.readLine, readWord) := by
    rw [is.1]
    rfl
  have accepted {n : Int} (denotes : Decimal.LineDenotes line n) (range : Word.InRange n) :=
    step_of_accepted next is.2 command stack valid read (readWord_of_denotes short denotes range i)
  refine ⟨fun n => ⟨fun step => ?_, fun ⟨denotes, range⟩ => accepted denotes range⟩, fun no => ?_⟩
  · by_cases word : ∃ n, Decimal.LineDenotes line n ∧ Word.InRange n
    · -- What is found in the cell afterwards tells the number that was stored.
      obtain ⟨other, denotes, range⟩ := word
      have same := congrArg (fun e => e.machine.heap.read address.toNat)
        (step.symm.trans (accepted denotes range))
      simp only [Effect.completed_machine, Heap.read_write, ↓reduceIte] at same
      exact same ▸ ⟨denotes, range⟩
    · obtain ⟨problem, -, refused⟩ := exists_refuses short word
      have stops := step_of_refused next is.2 command stack valid read (refused i)
      cases congrArg Effect.stop (step.symm.trans stops)
  · obtain ⟨problem, refuses, refused⟩ := exists_refuses short no
    exact ⟨problem, fun other => ⟨fun h => h.unique refuses, fun same => same ▸ refuses⟩,
      step_of_refused next is.2 command stack valid read (refused i)⟩

def numberReader : Instruction :=
  ⟨.io, .readNumber, none, none⟩

/-- A machine that is about to read a line into its only cell. -/
def beforeLine (line : String) : Machine :=
  (start 1 false ⟨.scripted [.ok line] [], ""⟩).push 0

/-- A line with a no-break space and leading zeros is stored, one with a digit separator is not. -/
theorem padded_stored_separated_refused :
    (beforeLine "\u00a0-0012\n").step (.ofList [numberReader]) =
        .completed { (beforeLine "\u00a0-0012\n").tookLine numberReader [] with
          heap := (Heap.blank 1).write 0 (-12) } ∧
      (beforeLine "1_000\n").step (.ofList [numberReader]) =
        .stopped ((beforeLine "1_000\n").tookLine numberReader [])
          (.fault ⟨.input numberReader (.notAnInteger "1_000"), some 0, some 0, none⟩) := by
  constructor
  · have trims : Text.Trims "\u00a0-0012\n".toList "-0012".toList := Text.trims_iff.mpr (by decide)
    have denotes : Decimal.LineDenotes "\u00a0-0012\n" (-12) :=
      Decimal.lineDenotes_iff.mpr ⟨⟨true, "0012".toList⟩, by decide, by decide⟩
    exact ((number_line_stored_iff (m := beforeLine _) rfl ⟨rfl, rfl⟩ rfl (by decide) rfl
      (Decimal.not_isOverlong_of_trims trims (by decide))).1 (-12)).mpr ⟨denotes, by decide⟩
  · have trims : Text.Trims "1_000\n".toList "1_000".toList := Text.trims_iff.mpr (by decide)
    have no (n : Int) : ¬Decimal.Denotes "1_000".toList n := by
      rw [Decimal.denotes_iff]
      rintro ⟨numeral, read, -⟩
      cases read
    obtain ⟨problem, only, stops⟩ := (number_line_stored_iff (m := beforeLine "1_000\n")
      (p := .ofList [numberReader]) rfl ⟨rfl, rfl⟩ rfl (by decide) rfl
      (Decimal.not_isOverlong_of_trims trims (by decide))).2 (by
        rintro ⟨n, ⟨core, trims', denotes⟩, -⟩
        obtain rfl := trims.eq.symm.trans trims'.eq
        exact no n denotes)
    obtain rfl := (only (.notAnInteger "1_000")).mp (.notAnInteger (by decide) trims no)
    exact stops

end Machine

end Whitespace
