import Mathlib.Data.List.DropRight
import Whitespace.Proofs.Machine.Course
import Whitespace.Proofs.Machine.Faults

/-!
# The step log

A machine counts the steps that it makes and remembers the latest of them, whether or not they
completed. A step that fails by a runtime error is the one remembered last, and the error names it.

Results:
1. `Machine.Course.remembers`: what a machine remembers of its course.
2. `Machine.perform_error`: what the error of a step names.
3. `Machine.log_matches_execution`: the log and the errors along unobserved steps and runs.
-/

namespace Whitespace

/-- What a machine that has made these steps of a program counts and remembers. -/
structure Machine.Remembers (p : Program) (made : List Step) (m : Machine) : Prop where
  executed : m.executed = made.length
  history : m.history = (made.map Step.entry).rtake logLimit
  length : m.history.length = min logLimit m.executed
  steps : m.history.map LogEntry.step =
    List.range' (m.executed - m.history.length) m.history.length
  fetched : ∀ entry ∈ m.history, p.fetch? entry.pointer = some entry.instruction
  last : m.last = m.history.getLast?.map LogEntry.instruction

/-- The error names the step of the entry: its number, its instruction and its position. -/
structure RuntimeError.Names (error : RuntimeError) (entry : LogEntry) : Prop where
  step : error.step = some entry.step
  instruction : error.fault.instruction? = some entry.instruction
  pointer : error.pointer = some entry.pointer

namespace Machine

variable {p : Program} {origin m m' : Machine} {made : List Step} {i : Instruction}
  {error : RuntimeError}

/-! ## The log -/

/-- The steps of a course are numbered one after the other. -/
theorem Course.entry_step (h : Course p m made m') :
    (made.map Step.entry).map LogEntry.step = List.range' m.executed made.length := by
  refine h.history (P := fun made _ =>
    (made.map Step.entry).map LogEntry.step = List.range' m.executed made.length) rfl ?_
  intro made s first _ ih
  have number : s.entry.step = m.executed + made.length := first.executed_eq
  rw [List.map_append, List.map_append, ih, List.length_append, List.length_singleton,
    List.range'_1_concat, ← number]
  rfl

/-- Every step of a course executes the instruction that its machine fetches. -/
theorem Course.fetched (h : Course p m made m') :
    ∀ entry ∈ made.map Step.entry, p.fetch? entry.pointer = some entry.instruction := by
  intro entry member
  obtain ⟨s, made_s, rfl⟩ := List.mem_map.mp member
  obtain ⟨first, rest, rfl⟩ := List.append_of_mem made_s
  exact (next_eq_instruction (course_split_iff.mp h).2.1).2.2

/-- A machine that was fresh remembers the latest steps of its course. -/
theorem Course.remembers (h : Course p origin made m) (fresh : origin.IsFresh) :
    Remembers p made m := by
  have count : origin.executed = 0 := congrArg executed fresh.symm
  have executed : m.executed = made.length := by rw [h.executed_eq, count, Nat.zero_add]
  have history : m.history = (made.map Step.entry).rtake logLimit := by
    unfold Machine.history
    rw [h.log_eq fresh, List.rtake_eq_reverse_take_reverse]
  have dropped : m.history = (made.map Step.entry).drop (made.length - logLimit) := by
    rw [history, List.rtake, List.length_map]
  have length : m.history.length = min logLimit m.executed := by
    rw [dropped, List.length_drop, List.length_map, executed]
    omega
  refine ⟨executed, history, length, ?_, ?_, ?_⟩
  · rw [length, executed, dropped, List.map_drop, h.entry_step, count, List.drop_range']
    congr 1 <;> omega
  · intro entry member
    rw [dropped] at member
    exact h.fetched entry (List.mem_of_mem_drop member)
  · have newest : m.history.getLast? = made.getLast?.map Step.entry := by
      unfold Machine.history
      rw [List.getLast?_reverse, h.log_head? fresh]
    rw [h.last_eq, newest, ← fresh]
    cases made.getLast? <;> rfl

/-! ## Errors -/

/-- The error of a step names it, unless the input device raised one that names something else. -/
theorem perform_error (h : (m.perform i).stop = some (.fault error)) :
    error.Names ⟨m.executed, m.pointer, i⟩ ∨
      ∃ raised, m.console.Raises (.runtime raised) ∧
        error = raised.atStep m.pointer m.executed := by
  obtain ⟨cause, stops, placed⟩ := perform_stop_eq_some_iff.mp h
  cases cause with
  | fault cause =>
    cases placed
    obtain raises | ⟨pointer, faults⟩ := execute_fault stops
    · exact .inr ⟨cause, raises, rfl⟩
    · refine .inl ⟨rfl, faults.instruction?_eq, ?_⟩
      show cause.pointer.or _ = _
      rw [pointer, Option.none_or]
  | _ => cases placed

/-- A machine that steps and runs lead to from a fresh one, whether or not they complete, has made a
course of steps, counts them, and remembers the latest. Where its next step fails by a runtime
error, that step is then the one remembered last, and the error names it; but an error that the
input device itself raised keeps the instruction and the position that it names. -/
theorem log_matches_execution (fresh : origin.IsFresh)
    (driven : Driven (.empty : Registry Unit) p origin m) :
    ∃ made, Course p origin made m ∧ Remembers p made m ∧
      ∀ error, (m.step p).stop = some (.fault error) →
        ∃ entry, (m.step p).machine.history.getLast? = some entry ∧ entry.step = m.executed ∧
          (error.Names entry ∨ ∃ raised, origin.console.Raises (.runtime raised) ∧
            error = raised.atStep entry.pointer entry.step) := by
  obtain ⟨made, course⟩ := driven_iff_exists_course.mp driven
  refine ⟨made, course, course.remembers fresh, ?_⟩
  intro error stops
  obtain ⟨i, next, -⟩ := step_fault stops
  rw [step_eq_perform next] at stops ⊢
  have newest : (m.perform i).machine.history.getLast? = some ⟨m.executed, m.pointer, i⟩ := by
    have log : (m.perform i).machine.log = _ := Step.after_log ⟨m, i⟩
    unfold Machine.history
    rw [List.getLast?_reverse, log]
    rfl
  refine ⟨⟨m.executed, m.pointer, i⟩, newest, rfl, ?_⟩
  obtain names | ⟨raised, raises, rfl⟩ := perform_error stops
  · exact .inl names
  · exact .inr ⟨raised, course.reachable.raises raises, rfl⟩

def discardTwo : Program :=
  .ofList [⟨.stack, .push, some (.number 1), none⟩, ⟨.stack, .discard, none, none⟩,
    ⟨.stack, .discard, none, none⟩]

/-- The second discard fails, and is reported as the step that is remembered last. -/
theorem second_discard_named :
    ∃ m made error entry, (start 0 false (.ofText "")).IsFresh ∧
      Driven (.empty : Registry Unit) discardTwo (start 0 false (.ofText "")) m ∧
      Remembers discardTwo made m ∧ made.length = 2 ∧
      (m.step discardTwo).stop = some (.fault error) ∧
      (m.step discardTwo).machine.history.getLast? = some entry ∧ entry.step = 2 ∧
      error.Names entry := by
  have fresh : (start 0 false (.ofText "")).IsFresh := rfl
  have driven := driven_iterate discardTwo (start 0 false (.ofText "")) 2
  obtain ⟨made, -, remembers, faults⟩ := log_matches_execution fresh driven
  obtain ⟨entry, newest, number, names | ⟨raised, raises, -⟩⟩ := faults _ rfl
  · exact ⟨_, made, _, entry, fresh, driven, remembers, remembers.executed.symm, rfl, newest,
      number, names⟩
  · exact raises.elim

end Machine

end Whitespace
