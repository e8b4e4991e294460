import Whitespace.Proofs.Machine.Course
import Whitespace.Proofs.Machine.Input

/-!
# What is taken from the input

A machine takes input from two providers, one for characters and one for lines. A step calls the one
that its instruction reads from, once, if there is a valid address on top of the stack. Nothing else
calls a provider: no other step, whether or not it completes, and neither observers nor a reset. So
the calls of a whole history take the input from its front, and leave the rest.

Results:
1. `Step.after_console_of_call`, `Step.after_input_of_no_call`: what a step does to the input.
2. `Machine.Reachable.exists_journey`: steps and resets are all that happens to a machine.
3. `Machine.Journey.scripted`, `Machine.Journey.stream`: what a history has taken of its input.
4. `Machine.input_taken_in_order`: all this for every history.
-/

namespace Whitespace

/-- The two ways to ask for input. -/
inductive Provider where
  | chars
  | lines
deriving DecidableEq, Repr

/-- What a call of the provider gives, and the console after it. -/
def Provider.read : Provider → Console → Except Raised String × Console
  | chars => fun console => console.readChar
  | lines => Console.readLine

def Instruction.provider? (i : Instruction) : Option Provider :=
  match i.family, i.command with
  | .io, .readCharacter => some .chars
  | .io, .readNumber => some .lines
  | _, _ => none

namespace Step

/-- The provider that the step is to call: that of its instruction, if the top of the stack is a
valid address. -/
def call? (s : Step) : Option Provider :=
  match s.before.stack with
  | [] => none
  | address :: _ =>
    if 0 ≤ address ∧ address < s.before.heap.size then s.instruction.provider? else none

/-- What the step is given by the provider that it calls. -/
def received? (s : Step) : Option (Except Raised String) :=
  s.call?.map fun provider => (provider.read s.before.console).1

def callsOf (provider : Provider) (made : List Step) : Nat :=
  made.countP fun s => s.call? = some provider

/-- What a provider gave to the steps that call it, in this order. -/
def receivedFrom (provider : Provider) (made : List Step) : List (Except Raised String) :=
  (made.filter fun s => s.call? = some provider).filterMap received?

end Step

namespace Input

def script? (provider : Provider) : Input → Option (List (Except Raised String))
  | scripted lines chars =>
    match provider with
    | .chars => some chars
    | .lines => some lines
  | stream _ => none

/-- So many items from the front of a script, the end of which reads as no text. -/
def firstItems (script : List (Except Raised String)) (count : Nat) : List (Except Raised String) :=
  (List.range count).map fun index => script.getD index (.ok "")

end Input

namespace Machine

/-- `Journey p origin made m`: steps and resets lead from `origin` to `m`, and `made` are the steps,
in this order. A step need not complete. -/
inductive Journey (p : Program) (origin : Machine) : List Step → Machine → Prop
  | origin : Journey p origin [] origin
  | step {made : List Step} {s : Step} (journey : Journey p origin made s.before)
      (next : s.before.next p = .instruction s.instruction) : Journey p origin (made ++ [s]) s.after
  | reset {made : List Step} {m : Machine} (journey : Journey p origin made m) :
      Journey p origin made m.reset

end Machine

/-! ## What a call takes -/

namespace Provider

variable {c : Console} {provider other : Provider} {script : List (Except Raised String)}

theorem read_script (h : c.input.script? provider = some script) :
    (provider.read c).1 = script.getD 0 (.ok "") ∧
      (provider.read c).2.input.script? provider = some (script.drop 1) := by
  rcases c with ⟨⟨lines, chars⟩ | pending, shown⟩
  · cases provider <;> cases h <;> cases script <;> exact ⟨rfl, rfl⟩
  · cases h

/-- A call of one provider leaves the script of the other one as it is. -/
theorem read_script_of_ne (ne : other ≠ provider) :
    (other.read c).2.input.script? provider = c.input.script? provider := by
  rcases c with ⟨⟨lines, chars⟩ | ⟨_ | ⟨char, pending⟩⟩, shown⟩ <;> cases other <;> cases provider <;>
    first | rfl | exact absurd rfl ne

theorem read_stream (provider : Provider) {pending : List Char} (h : c.input = .stream pending) :
    ∃ text left, (provider.read c).1 = .ok text ∧ (provider.read c).2.input = .stream left ∧
      pending = text.toList ++ left := by
  cases provider with
  | chars =>
    cases pending with
    | nil => exact ⟨"", [], by simp [read, Console.readChar, h]⟩
    | cons char pending =>
      exact ⟨String.singleton char, pending, by simp [read, Console.readChar, h, Console.emit]⟩
  | lines =>
    refine ⟨String.ofList (Console.splitLine pending).1, (Console.splitLine pending).2, ?_⟩
    simp [read, Console.readLine, h, Console.splitLine_append]

end Provider

/-! ## What a step takes -/

section

variable {i : Instruction} {m : Machine}

theorem Instruction.provider?_of_reader {read : Console → Except Raised String × Console}
    {word : Instruction → String → Except Stop Int} (family : i.family = .io)
    (command : i.command.reader? = some (read, word)) :
    ∃ provider, i.provider? = some provider ∧ provider.read = read := by
  unfold provider?
  cases hc : i.command <;> rw [hc] at command <;> cases command <;> rw [family]
  · exact ⟨.chars, rfl, rfl⟩
  · exact ⟨.lines, rfl, rfl⟩

theorem Instruction.reader_of_provider? {provider : Provider} (h : i.provider? = some provider) :
    i.family = .io ∧ ∃ word, i.command.reader? = some (provider.read, word) := by
  unfold provider? at h
  split at h
  · next family command =>
    cases h
    exact ⟨family, _, by rw [command]; rfl⟩
  · next family command =>
    cases h
    exact ⟨family, _, by rw [command]; rfl⟩
  · cases h

/-- An instruction that does not read takes nothing. -/
theorem Machine.execute_input_of_no_read (h : i.provider? = none) :
    (m.execute i).machine.console.input = m.console.input := by
  have he := executes m i
  generalize m.execute i = e at he ⊢
  cases he with
  | readFailed family command | readRefused family command | read family command =>
    obtain ⟨provider, found, -⟩ := Instruction.provider?_of_reader family command
    rw [h] at found
    cases found
  | outputCharacter | outputNumber =>
    rw [Effect.completed_machine, output]
    split <;> rfl
  | _ => rfl

end

namespace Step

variable {s : Step} {provider : Provider}

theorem call?_eq_some_iff :
    s.call? = some provider ↔ ∃ address rest, s.before.stack = address :: rest ∧
      (0 ≤ address ∧ address < s.before.heap.size) ∧
        s.instruction.provider? = some provider := by
  unfold call?
  split
  · next stack => simp [stack]
  · next address rest stack => simp [stack]

/-- A step that calls a provider calls it once. -/
theorem after_console_of_call (h : s.call? = some provider) :
    s.after.console = (provider.read s.before.console).2 := by
  obtain ⟨address, rest, stack, valid, reads⟩ := call?_eq_some_iff.mp h
  obtain ⟨family, word, command⟩ := Instruction.reader_of_provider? reads
  have inside : s.before.heap.address? address = some address.toNat := if_pos valid
  exact Machine.execute_console_of_read (m := s.before.record s.instruction) family command stack
    inside

/-- Any other step leaves the input as it is, whether or not it completes. -/
theorem after_input_of_no_call (h : s.call? = none) :
    s.after.console.input = s.before.console.input := by
  cases reads : s.instruction.provider? with
  | none => exact Machine.execute_input_of_no_read (m := s.before.record s.instruction) reads
  | some provider =>
    obtain ⟨family, word, command⟩ := Instruction.reader_of_provider? reads
    have outside (address : Int) (rest : List Int) (stack : s.before.stack = address :: rest) :
        s.before.heap.address? address = none := by
      refine if_neg fun valid => ?_
      have call := call?_eq_some_iff.mpr ⟨address, rest, stack, valid, reads⟩
      cases h.symm.trans call
    have same := Machine.execute_machine_of_invalid (m := s.before.record s.instruction) family
      command outside
    exact congrArg (fun m => m.console.input) same

variable {made : List Step}

theorem received?_of_call (h : s.call? = some provider) :
    s.received? = some (provider.read s.before.console).1 := by
  rw [received?, h]
  rfl

theorem callsOf_append_of_call (h : s.call? = some provider) :
    callsOf provider (made ++ [s]) = callsOf provider made + 1 := by
  simp [callsOf, h]

theorem callsOf_append_of_ne (h : s.call? ≠ some provider) :
    callsOf provider (made ++ [s]) = callsOf provider made := by
  simp [callsOf, h]

theorem receivedFrom_append_of_call (h : s.call? = some provider) :
    receivedFrom provider (made ++ [s]) =
      receivedFrom provider made ++ [(provider.read s.before.console).1] := by
  simp [receivedFrom, List.filter_append, h, received?_of_call h]

theorem receivedFrom_append_of_ne (h : s.call? ≠ some provider) :
    receivedFrom provider (made ++ [s]) = receivedFrom provider made := by
  simp [receivedFrom, List.filter_append, h]

end Step

/-! ## What a history takes -/

namespace Machine

variable {Notes : Type} {r : Registry Notes} {p : Program} {origin m : Machine} {made : List Step}

/-- Steps and resets are all that happens to a machine, whoever observes it. -/
theorem Reachable.exists_journey (h : Reachable r p origin m) :
    ∃ made, Journey p origin made m := by
  refine h.invariant (P := fun m => ∃ made, Journey p origin made m) ⟨[], .origin⟩ ?_ ?_
  · rintro m i ⟨made, journey⟩ next
    exact ⟨_, journey.step (s := ⟨m, i⟩) next⟩
  · rintro m ⟨made, journey⟩
    exact ⟨made, journey.reset⟩

/-- A course is a journey without resets. -/
theorem Course.journey {m' : Machine} (h : Course p m made m') : Journey p m made m' :=
  h.history (P := Journey p m) .origin fun _ _ _ next journey => journey.step next

/-- The calls of a provider take its script item by item. -/
theorem Journey.scripted (h : Journey p origin made m) {provider : Provider}
    {script : List (Except Raised String)}
    (scripted : origin.console.input.script? provider = some script) :
    Step.receivedFrom provider made = Input.firstItems script (Step.callsOf provider made) ∧
      m.console.input.script? provider = some (script.drop (Step.callsOf provider made)) := by
  induction h with
  | origin => exact ⟨rfl, scripted⟩
  | reset _ ih => exact ih
  | @step made s _ _ ih =>
    obtain ⟨received, left⟩ := ih
    by_cases call : s.call? = some provider
    · obtain ⟨item, rest⟩ := Provider.read_script left
      rw [Step.receivedFrom_append_of_call call, Step.callsOf_append_of_call call, received, item,
        Step.after_console_of_call call, rest, List.drop_drop]
      refine ⟨?_, rfl⟩
      rw [Input.firstItems, Input.firstItems, List.range_succ, List.map_append]
      simp
    · -- A step that calls the other provider leaves this script alone too.
      rw [Step.receivedFrom_append_of_ne call, Step.callsOf_append_of_ne call]
      refine ⟨received, Eq.trans ?_ left⟩
      cases other : s.call? with
      | none => rw [Step.after_input_of_no_call other]
      | some other' =>
        rw [Step.after_console_of_call other]
        exact Provider.read_script_of_ne fun same => call (same ▸ other)

/-- The calls of both providers take a stream from its front. -/
theorem Journey.stream (h : Journey p origin made m) {pending : List Char}
    (stream : origin.console.input = .stream pending) :
    ∃ (texts : List String) (left : List Char),
      made.filterMap Step.received? = texts.map Except.ok ∧
        m.console.input = .stream left ∧ pending = texts.flatMap String.toList ++ left := by
  induction h with
  | origin => exact ⟨[], pending, rfl, stream, rfl⟩
  | reset _ ih => exact ih
  | @step made s _ _ ih =>
    obtain ⟨texts, left, received, input, rfl⟩ := ih
    rw [List.filterMap_append, received]
    cases call : s.call? with
    | none =>
      have nothing : s.received? = none := by rw [Step.received?, call, Option.map_none]
      refine ⟨texts, left, ?_, (Step.after_input_of_no_call call).trans input, rfl⟩
      rw [List.filterMap_cons_none nothing, List.filterMap_nil, List.append_nil]
    | some provider =>
      obtain ⟨text, left, item, input', rfl⟩ := provider.read_stream input
      refine ⟨texts ++ [text], left, ?_, ?_, ?_⟩
      · rw [List.filterMap_cons_some (Step.received?_of_call call), List.filterMap_nil, item,
          List.map_append, List.map_singleton]
      · rw [Step.after_console_of_call call, input']
      · rw [List.flatMap_append, List.flatMap_singleton, List.append_assoc]

/-- Input is taken exactly by the reads that go through their checks, whatever program, machine and
observers. A step calls the provider of its instruction, and calls it once, if the top of the stack
is a valid address. Every other step leaves the input as it is, whether or not it completes. Steps
and resets are all that happens to a machine under observers, and a reset leaves the console as it
is. Along every such history a provider gives the items of its script one after the other, one to
each step that calls it, and the rest of the script is left. So do both of a stream, with texts that
make up the part of it that is taken. -/
theorem input_taken_in_order (r : Registry Notes) (p : Program) (origin : Machine) :
    (∀ s : Step,
      (∀ provider, s.call? = some provider →
        s.after.console = (provider.read s.before.console).2) ∧
      (s.call? = none → s.after.console.input = s.before.console.input)) ∧
    (∀ m, Reachable r p origin m → ∃ made, Journey p origin made m) ∧
    (∀ m : Machine, m.reset.console = m.console) ∧
    ∀ made m, Journey p origin made m →
      (∀ provider script, origin.console.input.script? provider = some script →
        Step.receivedFrom provider made = Input.firstItems script (Step.callsOf provider made) ∧
          m.console.input.script? provider = some (script.drop (Step.callsOf provider made))) ∧
      ∀ pending, origin.console.input = .stream pending →
        ∃ (texts : List String) (left : List Char),
          made.filterMap Step.received? = texts.map Except.ok ∧
            m.console.input = .stream left ∧ pending = texts.flatMap String.toList ++ left := by
  refine ⟨fun s => ⟨fun provider => Step.after_console_of_call, Step.after_input_of_no_call⟩,
    fun m => Reachable.exists_journey, fun m => rfl, fun made m journey => ⟨?_, ?_⟩⟩
  · exact fun provider script => journey.scripted
  · exact fun pending => journey.stream

/-- Reads three times, the second time into a cell that a heap of one cell does not have. -/
def readThrice : Program :=
  .ofList [⟨.stack, .push, some (.number 0), none⟩, ⟨.io, .readCharacter, none, none⟩,
    ⟨.stack, .push, some (.number 1), none⟩, ⟨.io, .readCharacter, none, none⟩,
    ⟨.stack, .push, some (.number 0), none⟩, ⟨.io, .readCharacter, none, none⟩]

/-- A read that fails on its address takes nothing from the reads after it. -/
theorem failed_read_skips_nothing :
    ∃ made m, Journey readThrice (start 1 false ⟨.scripted [] [.ok "a", .ok "b"], ""⟩) made m ∧
      (∃ s ∈ made, s.instruction.Is .readCharacter ∧ s.stop ≠ none) ∧
      Step.receivedFrom .chars made = [.ok "a", .ok "b"] := by
  obtain ⟨-, -, -, taken⟩ := input_taken_in_order (.empty : Registry Unit) readThrice
    (start 1 false ⟨.scripted [] [.ok "a", .ok "b"], ""⟩)
  have journey := Course.journey (p := readThrice)
    (m := start 1 false ⟨.scripted [] [.ok "a", .ok "b"], ""⟩)
    (.cons rfl (.cons rfl (.cons rfl (.cons rfl (.cons rfl (.cons rfl .nil))))))
  refine ⟨_, _, journey, ⟨_, List.mem_of_getElem? (i := 3) rfl, ⟨rfl, rfl⟩, nofun⟩, ?_⟩
  exact ((taken _ _ journey).1 .chars _ rfl).1

end Machine

end Whitespace
