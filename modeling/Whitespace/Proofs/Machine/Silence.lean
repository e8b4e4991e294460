import Whitespace.Proofs.Machine.Atomicity
import Whitespace.Proofs.Machine.Memory
import Whitespace.Proofs.Machine.Restart
import Whitespace.Proofs.Machine.SideBySide

/-!
# Silence

A machine that drops its output does everything else that it does otherwise: it checks and consumes
what it is to show, goes through the same states, reads the same input and fails at the same steps.
A console on a stream shows a character again that is read from it, and this echo is no output: it
is all that a silent machine shows.

Results:
1. `Likeness.silence`: consoles of which one is not written to cannot be told apart by reading.
2. `Machine.Course.shown_eq`: what a silent machine has shown.
3. `Machine.silence_changes_nothing_else`: a machine that is silent and one that is not, step by
   step.
-/

namespace Whitespace

/-! ## Reading without writing -/

namespace Console

variable {c c' : Console}

def nextChar? (c : Console) : Option Char :=
  match c.input with
  | .stream pending => pending.head?
  | .scripted .. => none

def IsScripted (c : Console) : Prop :=
  ∃ lines chars, c.input = .scripted lines chars

theorem IsScripted.nextChar?_eq (h : c.IsScripted) : c.nextChar? = none := by
  obtain ⟨lines, chars, script⟩ := h
  unfold nextChar?
  rw [script]

theorem IsScripted.readChar (h : c.IsScripted) : c.readChar.2.IsScripted := by
  obtain ⟨_, shown⟩ := c
  obtain ⟨lines, chars, rfl⟩ := h
  exact ⟨_, _, rfl⟩

theorem IsScripted.readLine (h : c.IsScripted) : c.readLine.2.IsScripted := by
  obtain ⟨_, shown⟩ := c
  obtain ⟨lines, chars, rfl⟩ := h
  exact ⟨_, _, rfl⟩

theorem readChar_congr (input : c'.input = c.input) :
    c'.readChar.1 = c.readChar.1 ∧ c'.readChar.2.input = c.readChar.2.input := by
  obtain ⟨_, shown'⟩ := c'
  rcases c with ⟨⟨lines, chars⟩ | ⟨_ | ⟨char, pending⟩⟩, shown⟩ <;> cases input <;> exact ⟨rfl, rfl⟩

theorem readLine_congr (input : c'.input = c.input) :
    c'.readLine.1 = c.readLine.1 ∧ c'.readLine.2.input = c.readLine.2.input := by
  obtain ⟨_, shown'⟩ := c'
  rcases c with ⟨⟨lines, chars⟩ | pending, shown⟩ <;> cases input <;> exact ⟨rfl, rfl⟩

theorem emitUnless_input (silent : Bool) (text : String) (c : Console) :
    (c.emitUnless silent text).input = c.input := by
  unfold emitUnless
  split <;> rfl

/-- A character that is read from a stream is shown again. -/
theorem readChar_echo (c : Console) :
    c.readChar.2.shown = c.shown ++ String.ofList c.nextChar?.toList := by
  rcases c with ⟨⟨lines, chars⟩ | ⟨_ | ⟨char, pending⟩⟩, shown⟩
  · exact String.append_empty.symm
  · exact String.append_empty.symm
  · rfl

end Console

/-- Machines are alike if one drops its output, the other does not, and they have the same input
left. -/
def Likeness.silence : Likeness where
  Heaps h h' := h = h'
  Consoles b c b' c' := b = false ∧ b' = true ∧ c'.input = c.input
  inside := by
    rintro h _ address cell rfl inside
    exact inside
  read := by
    rintro h _ rfl cell
    rfl
  write := by
    rintro h _ address cell rfl inside value
    rfl
  readChar := by
    rintro _ _ c c' ⟨loud, silent, input⟩
    obtain ⟨same, left⟩ := Console.readChar_congr input
    exact ⟨same, loud, silent, left⟩
  readLine := by
    rintro _ _ c c' ⟨loud, silent, input⟩
    obtain ⟨same, left⟩ := Console.readLine_congr input
    exact ⟨same, loud, silent, left⟩
  emit := by
    rintro _ _ c c' ⟨loud, silent, input⟩ text
    refine ⟨loud, silent, ?_⟩
    rw [Console.emitUnless_input, Console.emitUnless_input, input]

theorem Likeness.silence_fits (m : Machine) (i : Instruction) : Likeness.silence.Fits m i :=
  .inl fun _ _ same => congrArg Heap.size same.symm

/-! ## The echo -/

/-- The character that a step reads from a stream: a read of a character takes the first one if it
completes. -/
def Step.charRead? (s : Step) : Option Char :=
  if s.stop = none ∧ s.instruction.command = .readCharacter then s.before.console.nextChar?
  else none

namespace Machine

variable {p : Program} {m m' w : Machine} {i : Instruction} {made : List Step}

theorem execute_silent (m : Machine) (i : Instruction) :
    (m.execute i).machine.silent = m.silent :=
  (execute_keeps m i).2

/-- On a silent machine nothing but a character that is read is shown. -/
theorem execute_shown (silent : m.silent = true) (other : i.command ≠ .readCharacter) :
    (m.execute i).machine.console.shown = m.console.shown := by
  refine execute_console (P := fun c => c.shown = m.console.shown) ?_ ?_ ?_ rfl
  · intro reads
    exact absurd reads other
  · intro c same
    rw [c.readLine_shown, same]
  · intro loud
    rw [silent] at loud
    cases loud

/-- The read of a character that completes leaves the console as reading leaves it. -/
theorem execute_readCharacter (reads : i.command = .readCharacter)
    (completes : (m.execute i).stop = none) :
    (m.execute i).machine.console = m.console.readChar.2 := by
  have family : i.family = .io := by
    by_contra other
    rw [execute_of_family_ne (by rw [reads]; exact other)] at completes
    cases completes
  have command : i.command.reader? = some (fun console => console.readChar, readCode) := by
    rw [reads]
    rfl
  obtain ⟨address, rest, cell, text, value, stack, inside, -⟩ :=
    execute_read family command completes
  exact execute_console_of_read family command stack inside

/-- An instruction that fails shows nothing. -/
theorem execute_shown_of_stop {stop : Stop} (stops : (m.execute i).stop = some stop) :
    (m.execute i).machine.console.shown = m.console.shown := by
  obtain loses | unchanged := losesTop_or_unchanged stops
  · obtain ⟨top, rest, console, stop, -, shown, executed⟩ := execute_of_losesTop loses
    rw [executed]
    exact shown
  · rw [unchanged]

/-- A silent machine shows in a step the character that it reads. -/
theorem Step.after_shown {s : Step} (silent : s.before.silent = true) :
    s.after.console.shown = s.before.console.shown ++ String.ofList s.charRead?.toList := by
  have shows_nothing (none : s.charRead? = none)
      (same : s.after.console.shown = s.before.console.shown) :
      s.after.console.shown = s.before.console.shown ++ String.ofList s.charRead?.toList := by
    rw [none, same]
    exact String.append_empty.symm
  rcases stop : s.stop with _ | stopped
  · by_cases reads : s.instruction.command = .readCharacter
    · have console : s.after.console = s.before.console.readChar.2 :=
        execute_readCharacter reads ((Step.stop_eq_none_iff s).mp stop)
      rw [console, Console.readChar_echo, Step.charRead?, if_pos ⟨stop, reads⟩]
    · exact shows_nothing (if_neg fun h => reads h.2)
        (execute_shown (m := s.before.record s.instruction) silent reads)
  · obtain ⟨cause, stops, -⟩ := perform_stop_eq_some_iff.mp stop
    refine shows_nothing (if_neg ?_) (execute_shown_of_stop stops)
    rw [stop]
    nofun

/-! ## Silent courses -/

theorem Course.silent_eq (h : Course p m made m') : m'.silent = m.silent := by
  refine h.history (P := fun _ m' => m'.silent = m.silent) rfl ?_
  intro made s _ _ ih
  exact (execute_silent (s.before.record s.instruction) s.instruction).trans ih

/-- A silent machine has shown the characters that it has read from a stream, and nothing else. -/
theorem Course.shown_eq (h : Course p m made m') (silent : m.silent = true) :
    m'.console.shown = m.console.shown ++ String.ofList (made.filterMap Step.charRead?) := by
  refine h.history (P := fun made m' =>
    m'.console.shown = m.console.shown ++ String.ofList (made.filterMap Step.charRead?))
    String.append_empty.symm ?_
  intro made s first _ ih
  have echo : [s].filterMap Step.charRead? = s.charRead?.toList := by
    cases char : s.charRead? <;> simp [char]
  rw [Step.after_shown (first.silent_eq.trans silent), ih, List.filterMap_append, echo,
    String.ofList_append, String.append_assoc]

/-- A machine on a script stays on it. -/
theorem Reachable.isScripted {Notes : Type} {r : Registry Notes} (reachable : Reachable r p m m')
    (script : m.console.IsScripted) : m'.console.IsScripted := by
  refine reachable.invariant (P := fun m => m.console.IsScripted) script ?_ fun _ script => script
  intro m i script _
  exact execute_console (m := m.record i) (P := Console.IsScripted)
    (fun _ _ script => Console.IsScripted.readChar script)
    (fun _ script => Console.IsScripted.readLine script) (fun _ _ _ script => script) script

/-- The steps of a machine on a script read no character from a stream. -/
theorem Course.charRead?_eq_none (h : Course p m made m') (script : m.console.IsScripted) :
    ∀ s ∈ made, s.charRead? = none := by
  intro s member
  obtain ⟨first, rest, rfl⟩ := List.append_of_mem member
  have script := (course_split_iff.mp h).1.reachable.isScripted script
  unfold Step.charRead?
  rw [script.nextChar?_eq, ite_self]

/-! ## Side by side -/

def after (p : Program) (steps : Nat) (m : Machine) : Machine :=
  (fun m => (m.step p).machine)^[steps] m

/-- The machine made silent, as if it had shown this. -/
def silenced (shown : String) (m : Machine) : Machine :=
  { m with silent := true, console := { m.console with shown := shown } }

theorem eq_silenced_of_alike (alike : Likeness.silence.Machines m w) :
    w = m.silenced w.console.shown := by
  obtain ⟨stack, calls, heap, pointer, done, executed, last, log, silent, input, shown⟩ := w
  obtain ⟨rfl, rfl, heaps, rfl, rfl, rfl, rfl, rfl, -, silence, read⟩ := alike
  cases heaps
  cases silence
  cases read
  rfl

/-- After every number of steps the two machines are alike. -/
theorem alike_after (p : Program) (alike : Likeness.silence.Machines m w) (steps : Nat) :
    Likeness.silence.Machines (m.after p steps) (w.after p steps) := by
  unfold after
  induction steps with
  | zero => exact alike
  | succ steps ih =>
    rw [Function.iterate_succ_apply', Function.iterate_succ_apply']
    exact (ih.step fun i _ => Likeness.silence_fits _ i).machine

/-- A silent machine goes through the states of the one that is not. After every number of steps
they are the same but for what they have shown, and the same stops the next step, if anything does.
All that the silent one has shown are the characters that it has read from a stream; on a script
it has shown nothing. -/
theorem silence_changes_nothing_else (p : Program) (heapSize : Nat) (console : Console)
    (steps : Nat) :
    ∃ made,
      Course p (start heapSize true console) made ((start heapSize true console).after p steps) ∧
      (start heapSize true console).after p steps =
        ((start heapSize false console).after p steps).silenced
          (console.shown ++ String.ofList (made.filterMap Step.charRead?)) ∧
      (((start heapSize true console).after p steps).step p).stop =
        (((start heapSize false console).after p steps).step p).stop ∧
      (console.IsScripted →
        ((start heapSize true console).after p steps).console.shown = console.shown) := by
  have alike : Likeness.silence.Machines (start heapSize false console)
      (start heapSize true console) :=
    ⟨rfl, rfl, rfl, rfl, rfl, rfl, rfl, rfl, rfl, rfl, rfl⟩
  have after := alike_after p alike steps
  have next := after.step (p := p) fun i _ => Likeness.silence_fits _ i
  obtain ⟨made, course⟩ := driven_iff_exists_course.mp
    (driven_iterate p (start heapSize true console) steps)
  have shown : ((start heapSize true console).after p steps).console.shown =
      console.shown ++ String.ofList (made.filterMap Step.charRead?) := course.shown_eq rfl
  refine ⟨made, course, ?_, next.stop, ?_⟩
  · rw [← shown]
    exact eq_silenced_of_alike after
  · intro script
    rw [shown, List.filterMap_eq_nil_iff.mpr (course.charRead?_eq_none script)]
    exact String.append_empty

end Machine

end Whitespace
