import Whitespace.Proofs.Machine.Rules

/-!
# Failed steps

A step that fails is counted and moves the pointer on, but otherwise it leaves the machine as it
was, the input that it has read apart. Two kinds of failure cost the top value of the stack: a
condition that holds is consumed although its label leads nowhere, and a valid address is consumed
although the read fails.

Results:
1. `Machine.execute_of_losesTop`: in the two situations an instruction fails, and costs the top.
2. `Machine.losesTop_or_unchanged`: any other failure changes nothing at all.
3. `Machine.step_atomic`: what a failed step changes, whatever the instruction and the machine.
-/

namespace Whitespace

/-! ## Reads that fail -/

/-- The line, trimmed, is a number that is short enough to be converted, and a word. -/
def Decimal.DenotesWord (line : String) : Prop :=
  ∃ numeral, Numeral.ofChars? (Text.trim line.toList) = some numeral ∧
    numeral.digits.length ≤ digitLimit ∧ Word.InRange numeral.value

/-- A read for the command fails: the device raises, or what it gives is not acceptable. A character
may be anything but the end of the input; a line has to denote a word. -/
def Command.ReadFails (c : Command) (console : Console) : Prop :=
  match c with
  | .readCharacter => ∀ text, console.readChar.1 = .ok text → text = ""
  | .readNumber => ∀ line, console.readLine.1 = .ok line → ¬Decimal.DenotesWord line
  | _ => False

theorem Command.ReadFails.reader? {c : Command} {console : Console} (h : c.ReadFails console) :
    ∃ read word, c.reader? = some (read, word) := by
  cases c <;> first | exact ⟨_, _, rfl⟩ | exact h.elim

namespace Console

theorem readLine_shown (c : Console) : c.readLine.2.shown = c.shown := by
  rcases c with ⟨⟨lines, chars⟩ | pending, shown⟩ <;> rfl

theorem readChar_shown {c : Console} (echo : Bool)
    (h : ∀ text, (c.readChar echo).1 = .ok text → text = "") :
    (c.readChar echo).2.shown = c.shown := by
  rcases c with ⟨⟨lines, chars⟩ | ⟨_ | ⟨char, pending⟩⟩, shown⟩
  · rfl
  · rfl
  · have he : String.singleton char = "" := h _ rfl
    have hl := congrArg String.length he
    rw [String.length_singleton, String.length_empty] at hl
    cases hl

end Console

namespace Machine

variable {m : Machine} {i : Instruction}

theorem readCode_accepts_iff {text : String} :
    (∃ value, readCode i text = .ok value) ↔ text ≠ "" := by
  unfold readCode
  cases ht : text.toList with
  | nil =>
    have he : text = "" := String.toList_eq_nil_iff.mp ht
    constructor
    · rintro ⟨value, h⟩
      cases h
    · intro h
      exact absurd he h
  | cons c rest =>
    refine ⟨?_, fun _ => ⟨_, rfl⟩⟩
    rintro - rfl
    cases ht

theorem readWord_accepts_iff {line : String} :
    (∃ value, readWord i line = .ok value) ↔ Decimal.DenotesWord line := by
  unfold Decimal.DenotesWord
  cases hn : Decimal.Numeral.ofChars? (Text.trim line.toList) with
  | none =>
    obtain ⟨problem, hp⟩ := readWord_of_none hn
    rw [hp]
    constructor
    · rintro ⟨value, h⟩
      cases h
    · rintro ⟨numeral, h, -⟩
      cases h
  | some numeral =>
    rw [readWord_of_numeral hn]
    constructor
    · rintro ⟨value, h⟩
      split at h
      · cases h
      · next hd =>
        split at h
        · next hr => exact ⟨numeral, rfl, Nat.le_of_not_lt hd, hr⟩
        · cases h
    · rintro ⟨other, h, hd, hr⟩
      cases h
      exact ⟨numeral.value, by rw [if_neg (Nat.not_lt_of_le hd), if_pos hr]⟩

section

variable {read : Console → Except Raised String × Console}
  {word : Instruction → String → Except Stop Int}

/-- A read fails exactly when no text is read that denotes a word. -/
theorem readFails_iff {c : Command} (hc : c.reader? = some (read, word)) {console : Console} :
    c.ReadFails console ↔ ∀ text value, (read console).1 = .ok text → word i text ≠ .ok value := by
  have restate {Accepts : String → Prop}
      (hw : ∀ text, (∃ value, word i text = .ok value) ↔ Accepts text) :
      (∀ text, (read console).1 = .ok text → ¬Accepts text) ↔
        ∀ text value, (read console).1 = .ok text → word i text ≠ .ok value := by
    constructor
    · intro h text value hr ha
      exact h text hr ((hw text).mp ⟨value, ha⟩)
    · intro h text hr ha
      obtain ⟨value, hv⟩ := (hw text).mpr ha
      exact h text value hr hv
  cases c <;> cases hc
  · refine Iff.trans ?_ (restate fun _ => readCode_accepts_iff)
    simp only [Command.ReadFails, ne_eq, Decidable.not_not]
  · exact restate fun _ => readWord_accepts_iff

theorem reader?_shown {c : Command} (hc : c.reader? = some (read, word)) {console : Console}
    (h : c.ReadFails console) : (read console).2.shown = console.shown := by
  cases c <;> cases hc
  · exact Console.readChar_shown true h
  · exact console.readLine_shown

end

/-! ## Failed instructions -/

/-- `LosesTop m i`: the instruction `i` fails on the machine `m` after it has consumed the top value
of the stack. -/
inductive LosesTop (m : Machine) (i : Instruction) : Prop
  | unresolved {condition : Int → Bool} {name : String} {value : Int} {rest : List Int}
      (family : i.family = .flow) (command : i.command.condition? = some condition)
      (operand : i.operand = some (.label name none)) (stack : m.stack = value :: rest)
      (holds : condition value = true)
  | read {address : Int} {rest : List Int} {cell : Nat} (family : i.family = .io)
      (stack : m.stack = address :: rest) (inside : m.heap.address? address = some cell)
      (fails : i.command.ReadFails m.console)

/-- In the two situations the instruction fails. It has taken the top value of the stack, it may
have read from the console, and it has shown nothing. -/
theorem execute_of_losesTop (h : m.LosesTop i) :
    ∃ top rest console stop, m.stack = top :: rest ∧ console.shown = m.console.shown ∧
      m.execute i = .stopped { m with stack := rest, console := console } stop := by
  cases h with
  | unresolved family command operand stack holds =>
    exact ⟨_, _, m.console, _, stack, rfl,
      (Executes.unresolvedIf family command operand stack holds).eq⟩
  | @read address rest cell family stack inside fails =>
    obtain ⟨read, word, command⟩ := fails.reader?
    have hshown := reader?_shown command fails
    have hword := (readFails_iff (i := i) command).mp fails
    rcases result : read m.console with ⟨raised | text, console⟩
    · rw [result] at hshown
      exact ⟨_, _, _, _, stack, hshown, (Executes.readFailed family command stack inside result).eq⟩
    · rw [result] at hshown hword
      cases accepted : word i text with
      | ok value => exact absurd accepted (hword text value rfl)
      | error stop =>
        exact ⟨_, _, _, _, stack, hshown,
          (Executes.readRefused family command stack inside result accepted).eq⟩

/-- Any other failure of an instruction leaves the whole machine as it was. -/
theorem losesTop_or_unchanged {stop : Stop} (h : (m.execute i).stop = some stop) :
    m.LosesTop i ∨ (m.execute i).machine = m := by
  have he := executes m i
  generalize m.execute i = e at he h ⊢
  cases he with
  | unresolvedIf family command operand stack holds =>
    exact .inl (.unresolved family command operand stack holds)
  | readFailed family command stack inside result =>
    refine .inl (.read family stack inside ((readFails_iff (i := i) command).mpr ?_))
    intro text value hr
    rw [result] at hr
    cases hr
  | readRefused family command stack inside result refused =>
    refine .inl (.read family stack inside ((readFails_iff (i := i) command).mpr ?_))
    intro text value hr accepted
    rw [result] at hr
    cases hr
    rw [refused] at accepted
    cases accepted
  | inconsistent | underflow | copyOutside | slideNegative | divisionByZero | storeOutside
  | retrieveOutside | unresolved | retUnderflow | outputOutside | outputSurrogate | readOutside =>
    exact .inr rfl
  | _ => cases h

/-! ## Failed steps -/

/-- What a failed step leaves of a machine, and how it counts. -/
structure KeptByFailure (m after : Machine) : Prop where
  calls : after.calls = m.calls
  heap : after.heap = m.heap
  done : after.done = m.done
  shown : after.console.shown = m.console.shown
  pointer : after.pointer = m.pointer + 1
  executed : after.executed = m.executed + 1

/-- Only the stack, the heap and the console tell whether a failure costs the top value. -/
theorem LosesTop.congr {m' : Machine} (h : m.LosesTop i) (stack : m'.stack = m.stack)
    (heap : m'.heap = m.heap) (console : m'.console = m.console) : m'.LosesTop i := by
  cases h with
  | unresolved family command operand top holds =>
    exact .unresolved family command operand (stack.trans top) holds
  | read family top inside fails =>
    rw [← heap] at inside
    rw [← console] at fails
    exact .read family (stack.trans top) inside fails

/-- A step that fails keeps the calls, the heap, the exit and the output, advances the pointer by
one and counts one step. It keeps the operand stack too, but for its top value in exactly the two
situations of `LosesTop`, in which the step does fail. -/
theorem step_atomic {p : Program} (next : m.next p = .instruction i) :
    (m.LosesTop i → ∃ stop, (m.step p).stop = some stop) ∧
      ∀ stop, (m.step p).stop = some stop →
        m.KeptByFailure (m.step p).machine ∧
          ((m.LosesTop i ∧ ∃ top, m.stack = top :: (m.step p).machine.stack) ∨
            (¬m.LosesTop i ∧ (m.step p).machine.stack = m.stack)) := by
  rw [step_eq_perform next]
  by_cases hl : m.LosesTop i
  · have hr : (m.record i).LosesTop i := hl.congr rfl rfl rfl
    obtain ⟨top, rest, console, stop, stack, shown, he⟩ := execute_of_losesTop hr
    have hs : (m.perform i).stop = some (stop.atStep m.pointer m.executed) :=
      perform_stop_eq_some_iff.mpr ⟨stop, by rw [he]; rfl, rfl⟩
    rw [perform_machine, he]
    refine ⟨fun _ => ⟨_, hs⟩, fun _ _ => ⟨?_, .inl ⟨hl, top, stack⟩⟩⟩
    exact ⟨rfl, rfl, rfl, shown, rfl, rfl⟩
  · refine ⟨fun h => absurd h hl, fun stop h => ?_⟩
    obtain ⟨cause, hs, -⟩ := perform_stop_eq_some_iff.mp h
    have hm : ((m.record i).execute i).machine = m.record i :=
      (losesTop_or_unchanged hs).resolve_left fun h => hl (h.congr rfl rfl rfl)
    rw [perform_machine, hm]
    exact ⟨⟨rfl, rfl, rfl, rfl, rfl, rfl⟩, .inr ⟨hl, rfl⟩⟩

/-- A line that is no number costs the address that it was to be stored at, and nothing else. -/
theorem refused_line_costs_address :
    ∃ p m i stop, m.next p = .instruction i ∧ (m.step p).stop = some stop ∧
      m = (start 1 false ⟨.scripted [.ok "12x"] [], "?"⟩).push 0 ∧ m.LosesTop i ∧
      m.KeptByFailure (m.step p).machine ∧ (m.step p).machine.stack = [] := by
  have next : ((start 1 false ⟨.scripted [.ok "12x"] [], "?"⟩).push 0).next
      (.ofList [⟨.io, .readNumber, none, none⟩]) =
        .instruction ⟨.io, .readNumber, none, none⟩ := rfl
  obtain ⟨kept, ⟨loses, -⟩ | ⟨-, stack⟩⟩ := (step_atomic next).2 _ rfl
  · exact ⟨_, _, _, _, next, rfl, rfl, loses, kept, rfl⟩
  · have stack : [] = [(0 : Int)] := stack
    cases stack

end Machine

end Whitespace
