import Whitespace.Proofs.Machine.Course
import Whitespace.Proofs.Machine.Lifecycle

/-!
# The verdict of a run

An unobserved run makes steps up to one that does not complete, or until the machine has exited or
has no more instructions. It is successful if the machine has exited by then. If it has not,
although every step completed, the end of the program was reached without an exit, and the run
reports what was executed last.

Results:
1. `Machine.runsTo_iff`: the courses of unobserved runs, and what they come to.
2. `Machine.RunsTo.stop_eq_none_iff`, `Machine.RunsTo.endsByOnlyExit_iff`: the runs that succeed.
3. `Machine.run_verdict`: which of the verdicts a run comes to, and what it reports.
-/

namespace Whitespace

/-- A runtime error that has ended a run: without a step, it gets the latest one. -/
def Stop.placed (m : Machine) : Stop → Stop
  | .fault error => .fault (m.placed error)
  | stop => stop

/-- The last of the steps is an exit, and no other one is. -/
def EndsByOnlyExit (made : List Step) : Prop :=
  ∃ before last, made = before ++ [last] ∧ last.instruction.Is .exit ∧
    ∀ s ∈ before, ¬s.instruction.Is .exit

namespace Machine

/-- `RunsTo p m made m' stop`: an unobserved run of `m` makes the steps `made`, is `m'` by then, and
comes to `stop`. It succeeds once the program has exited. Otherwise it lacks its termination, or the
last step did not complete, or the pointer has left the program. -/
inductive RunsTo (p : Program) (m : Machine) : List Step → Machine → Option Stop → Prop
  | exited {made : List Step} {m' : Machine} (course : Course p m made m')
      (complete : ∀ s ∈ made, s.stop = none) (done : m'.done = true) : RunsTo p m made m' none
  | unterminated {made : List Step} {m' : Machine} (course : Course p m made m')
      (complete : ∀ s ∈ made, s.stop = none) (going : m'.done = false)
      (past : p.size ≤ m'.pointer) :
      RunsTo p m made m' (some (.fault (m'.placed (.ofFault (.missingTermination m'.last)))))
  | stopped {made : List Step} {last : Step} {stop : Stop}
      (course : Course p m (made ++ [last]) last.after) (complete : ∀ s ∈ made, s.stop = none)
      (stops : last.stop = some stop) : RunsTo p m (made ++ [last]) last.after (some stop)
  | outside {made : List Step} {m' : Machine} (course : Course p m made m')
      (complete : ∀ s ∈ made, s.stop = none) (next : m'.next p = .outside) :
      RunsTo p m made m' (some .outsideProgram)

variable {Notes : Type} {p : Program} {m m' origin : Machine} {made more : List Step}
  {stop : Option Stop} {journal : Journal Notes}

/-! ## Unobserved runs -/

theorem run_empty (fuel : Nat) (m : Machine) (journal : Journal Notes) :
    m.run fuel .empty p journal = (m.loop .empty p fuel journal).map (conclude .empty) :=
  run_of_announced rfl

theorem conclude_empty_stop (observed : Observed Notes) :
    (conclude .empty observed).stop = (ending observed).map (Stop.placed observed.machine) := by
  obtain ⟨m, journal, _ | stop⟩ := observed
  · unfold conclude ending
    cases hd : m.done with
    | true => simp only [hd, ↓reduceIte]; rfl
    | false => simp only [hd, Bool.false_eq_true, ↓reduceIte]; rfl
  · cases stop <;> rfl

/-- What stops a step has a step already. -/
theorem placed_of_stops {s : Step} {stop : Stop} (h : s.stop = some stop) (m : Machine) :
    stop.placed m = stop := by
  obtain ⟨cause, -, rfl⟩ := perform_stop_eq_some_iff.mp h
  cases cause <;> rfl

theorem runsTo_of_run {fuel : Nat} {observed : Observed Notes}
    (ran : m.run fuel .empty p journal = some observed) :
    ∃ made, RunsTo p m made observed.machine observed.stop := by
  rw [run_empty] at ran
  obtain ⟨looped, hl, rfl⟩ := Option.map_eq_some_iff.mp ran
  rw [conclude_machine, conclude_empty_stop]
  have steps := stepsEnd_of_loop hl
  generalize looped.machine = m' at steps ⊢
  generalize looped.journal = journal' at steps
  generalize ending looped = stop at steps ⊢
  cases steps with
  | exited proceeds done =>
    obtain ⟨made, course, complete⟩ := proceeds.exists_course
    exact ⟨made, .exited course complete done⟩
  | unterminated proceeds going past =>
    obtain ⟨made, course, complete⟩ := proceeds.exists_course
    exact ⟨made, .unterminated course complete going past⟩
  | ruleRaised _ _ raises => cases raises
  | @stopped last i _ _ stop proceeds next _ stops =>
    obtain ⟨made, course, complete⟩ := proceeds.exists_course
    have stops : Step.stop ⟨last, i⟩ = some stop := stops
    rw [Option.map_some, placed_of_stops stops]
    exact ⟨made ++ [⟨last, i⟩], .stopped (course_concat_iff.mpr ⟨course, next, rfl⟩) complete stops⟩
  | outside proceeds next =>
    obtain ⟨made, course, complete⟩ := proceeds.exists_course
    exact ⟨made, .outside course complete next⟩

theorem exists_run_of_stepsEnd {journal' : Journal Notes}
    (h : StepsEnd .empty p m journal m' journal' stop) :
    ∃ fuel observed, m.run fuel .empty p journal = some observed ∧ observed.machine = m' ∧
      observed.stop = stop.map (Stop.placed m') := by
  obtain ⟨fuel, looped, hl, rfl, -, rfl⟩ := h.exists_loop
  refine ⟨fuel, conclude .empty looped, ?_, conclude_machine looped, conclude_empty_stop looped⟩
  rw [run_empty, hl]
  rfl

theorem RunsTo.exists_run (h : RunsTo p m made m' stop) (journal : Journal Notes) :
    ∃ fuel observed, m.run fuel .empty p journal = some observed ∧ observed.machine = m' ∧
      observed.stop = stop := by
  cases h with
  | exited course complete done =>
    exact exists_run_of_stepsEnd (.exited (course.proceeds complete journal) done)
  | unterminated course complete going past =>
    exact exists_run_of_stepsEnd (.unterminated (course.proceeds complete journal) going past)
  | stopped course complete stops =>
    obtain ⟨first, next, -⟩ := course_concat_iff.mp course
    obtain ⟨fuel, observed, ran, hm, hs⟩ :=
      exists_run_of_stepsEnd (.stopped (first.proceeds complete journal) next rfl stops)
    rw [Option.map_some, placed_of_stops stops] at hs
    exact ⟨fuel, observed, ran, hm, hs⟩
  | outside course complete next =>
    exact exists_run_of_stepsEnd (.outside (course.proceeds complete journal) next)

/-- The courses of unobserved runs, and what they come to. -/
theorem runsTo_iff (journal : Journal Notes) :
    (∃ made, RunsTo p m made m' stop) ↔
      ∃ fuel observed, m.run fuel .empty p journal = some observed ∧ observed.machine = m' ∧
        observed.stop = stop := by
  constructor
  · rintro ⟨made, h⟩
    exact h.exists_run journal
  · rintro ⟨fuel, observed, ran, rfl, rfl⟩
    exact runsTo_of_run ran

theorem RunsTo.course (h : RunsTo p m made m' stop) : Course p m made m' := by
  cases h <;> assumption

/-- The steps of a run are those of the course that leads where it leads. -/
theorem RunsTo.of_course {more : List Step} (h : RunsTo p m more m' stop)
    (course : Course p m made m') : RunsTo p m made m' stop := by
  have length : more.length = made.length :=
    Nat.add_left_cancel (h.course.executed_eq.symm.trans course.executed_eq)
  rwa [(h.course.unique course length).1] at h

/-! ## Successful runs -/

theorem next_eq_halted_iff : m.next p = .halted ↔ m.done = true ∨ p.size ≤ m.pointer := by
  unfold Machine.next
  split
  · next halted => simp only [halted]
  · next going =>
    simp only [going, iff_false]
    split <;> nofun

/-- Steps that complete, up to a machine that has halted, are those of a run. -/
theorem Course.exists_runsTo (h : Course p m made m') (complete : ∀ s ∈ made, s.stop = none)
    (halted : m'.next p = .halted) : ∃ stop, RunsTo p m made m' stop := by
  cases hd : m'.done with
  | true => exact ⟨_, .exited h complete hd⟩
  | false =>
    have past := (next_eq_halted_iff.mp halted).resolve_left (by rw [hd]; nofun)
    exact ⟨_, .unterminated h complete hd past⟩

theorem going_of_outside (h : m.next p = .outside) : m.done = false := by
  cases hd : m.done with
  | false => rfl
  | true =>
    rw [next_of_done hd] at h
    cases h

/-- A step that does not complete is no exit. -/
theorem Step.after_going {s : Step} {stop : Stop}
    (next : s.before.next p = .instruction s.instruction) (stops : s.stop = some stop) :
    s.after.done = false := by
  rcases perform_done s.before s.instruction with same | is
  · exact same.trans (next_eq_instruction next).1
  · have completes : s.stop = none := (perform_exit is).1
    rw [completes] at stops
    cases stops

/-- A run succeeds exactly if the machine has exited by its end. -/
theorem RunsTo.stop_eq_none_iff (h : RunsTo p m made m' stop) :
    stop = none ↔ m'.done = true := by
  cases h with
  | exited _ _ done => simp [done]
  | unterminated _ _ going => simp [going]
  | stopped course _ stops =>
    have going := Step.after_going (course_concat_iff.mp course).2.1 stops
    simp [going]
  | outside _ _ next => simp [going_of_outside next]

theorem Course.eq_nil_of_halted (h : Course p m made m') (halted : m.next p = .halted) :
    made = [] := by
  cases h with
  | nil => rfl
  | cons next =>
    rw [halted] at next
    cases next

/-- A step of a course that another one follows is no exit. -/
theorem Course.not_exit {last : Step} (h : Course p m (made ++ [last]) m') :
    ∀ s ∈ made, ¬s.instruction.Is .exit := by
  intro s hs is
  obtain ⟨earlier, later, rfl⟩ := List.append_of_mem hs
  rw [List.append_assoc, List.cons_append] at h
  have rest : Course p s.after (later ++ [last]) m' := (course_split_iff.mp h).2.2
  have halted : s.after.next p = .halted := next_of_done (perform_exit is).2
  have nothing := rest.eq_nil_of_halted halted
  exact List.append_ne_nil_of_right_ne_nil later (List.cons_ne_nil last []) nothing

/-- A machine that has exited on its course has made an exit last, and no other one. -/
theorem Course.endsByOnlyExit (h : Course p m made m') (going : m.done = false)
    (done : m'.done = true) : EndsByOnlyExit made := by
  rcases List.eq_nil_or_concat made with rfl | ⟨before, last, rfl⟩
  · rw [course_nil_iff.mp h, going] at done
    cases done
  · rw [List.concat_eq_append] at h ⊢
    obtain ⟨-, next, rfl⟩ := course_concat_iff.mp h
    refine ⟨before, last, rfl, ?_, h.not_exit⟩
    refine (perform_done last.before last.instruction).resolve_left fun same => ?_
    have going : last.before.done = false := (next_eq_instruction next).1
    rw [Step.after, same, going] at done
    cases done

/-- A run of a machine that has not exited yet succeeds exactly if the step that it makes last is an
exit, the only one, no step fails, and the machine has halted by then. -/
theorem RunsTo.endsByOnlyExit_iff (h : RunsTo p m made m' stop) (going : m.done = false) :
    stop = none ↔
      EndsByOnlyExit made ∧ (∀ s ∈ made, s.stop = none) ∧ m'.next p = .halted := by
  rw [h.stop_eq_none_iff]
  constructor
  · intro done
    have success := h.stop_eq_none_iff.mpr done
    refine ⟨h.course.endsByOnlyExit going done, ?_, next_of_done done⟩
    cases h with
    | exited _ complete => exact complete
    | _ => cases success
  · rintro ⟨⟨before, last, rfl, is, -⟩, -, -⟩
    obtain ⟨-, -, rfl⟩ := course_concat_iff.mp h.course
    exact (perform_exit is).2

/-! ## Runs that lack their termination -/

theorem FaultsWith.name_ne {i : Instruction} {fault : Fault} (h : m.FaultsWith i fault) :
    fault.name ≠ "MissingTerminationError" := by
  cases h <;> simp [Fault.name]

/-- No step lacks its termination, unless the input device raises such an error itself. -/
theorem Step.name_ne {s : Step} {error : RuntimeError}
    (next : s.before.next p = .instruction s.instruction)
    (device : ∀ error, s.before.console.Raises (.runtime error) →
      error.fault.name ≠ "MissingTerminationError")
    (stops : s.stop = some (.fault error)) : error.fault.name ≠ "MissingTerminationError" := by
  rw [Step.stop, ← step_eq_perform next] at stops
  obtain ⟨i, -, ⟨raised, raises, same⟩ | faults⟩ := step_fault stops
  · rw [← same]
    exact device raised raises
  · exact faults.name_ne

/-- What a run reports that lacks its termination. -/
theorem RunsTo.eq_of_name {error : RuntimeError} (h : RunsTo p m made m' (some (.fault error)))
    (device : ∀ error, m.console.Raises (.runtime error) →
      error.fault.name ≠ "MissingTerminationError")
    (name : error.fault.name = "MissingTerminationError") :
    (∀ s ∈ made, s.stop = none) ∧ m'.done = false ∧ p.size ≤ m'.pointer ∧
      error = ⟨.missingTermination m'.last, none, m'.log.head?.map LogEntry.step, none⟩ := by
  cases h with
  | unterminated _ complete going past => exact ⟨complete, going, past, rfl⟩
  | stopped course _ stops =>
    obtain ⟨first, next, -⟩ := course_concat_iff.mp course
    refine absurd name (Step.name_ne next ?_ stops)
    intro error raises
    exact device error (first.reachable.raises raises)

/-- A run lacks its termination exactly if no step of it fails and it comes to the end of the program
without an exit. -/
theorem RunsTo.lacks_iff (h : RunsTo p m made m' stop)
    (device : ∀ error, m.console.Raises (.runtime error) →
      error.fault.name ≠ "MissingTerminationError")
    (le : m'.pointer ≤ p.size) :
    (∃ error, stop = some (.fault error) ∧ error.fault.name = "MissingTerminationError") ↔
      (∀ s ∈ made, s.stop = none) ∧ m'.pointer = p.size ∧ m'.done = false := by
  constructor
  · rintro ⟨error, rfl, name⟩
    obtain ⟨complete, going, past, -⟩ := h.eq_of_name device name
    exact ⟨complete, Int.le_antisymm le past, going⟩
  · rintro ⟨complete, atEnd, going⟩
    cases h with
    | exited _ _ done =>
      rw [done] at going
      cases going
    | unterminated => exact ⟨_, rfl, rfl⟩
    | stopped _ _ stops =>
      rw [complete _ (List.mem_append_right _ List.mem_cons_self)] at stops
      cases stops
    | outside _ _ next =>
      rw [next_eq_halted_iff.mpr (.inr (Int.le_of_eq atEnd.symm))] at next
      cases next

/-- The verdict of an unobserved run, whatever steps the machine has made since it was fresh. The
run makes some more steps, and succeeds exactly if the machine has exited by their end. Of a machine
that was fresh, this is to say that the last step is an exit, the only one, that no step failed, and
that no instruction is next. The run lacks its termination exactly if no step of it fails and it
comes to the end of the program without an exit; it then reports the instruction that was executed
last, at no position, and the step at which it was executed. Conversely a run whose steps all
complete up to a machine that has halted comes to an end there. -/
theorem run_verdict {file text : String} {encoding : Encoding}
    (parsed : Program.parse file encoding text = .ok p) (fresh : origin.IsFresh)
    (course : Course p origin made m)
    (device : ∀ error, m.console.Raises (.runtime error) →
      error.fault.name ≠ "MissingTerminationError")
    (journal : Journal Notes) :
    (∀ fuel observed, m.run fuel .empty p journal = some observed →
      ∃ more, Course p m more observed.machine ∧
        (observed.stop = none ↔ observed.machine.done = true) ∧
        (made = [] → (observed.stop = none ↔
          EndsByOnlyExit more ∧ (∀ s ∈ more, s.stop = none) ∧
            observed.machine.next p = .halted)) ∧
        ((∃ error, observed.stop = some (.fault error) ∧
            error.fault.name = "MissingTerminationError") ↔
          (∀ s ∈ more, s.stop = none) ∧ observed.machine.pointer = p.size ∧
            observed.machine.done = false) ∧
        ∀ error, observed.stop = some (.fault error) →
          error.fault.name = "MissingTerminationError" →
          error.fault = .missingTermination ((made ++ more).getLast?.map Step.instruction) ∧
            error.pointer = none ∧
            error.step = (made ++ more).getLast?.map fun s => s.before.executed) ∧
    ∀ more m', Course p m more m' → (∀ s ∈ more, s.stop = none) → m'.next p = .halted →
      ∃ fuel observed, m.run fuel .empty p journal = some observed ∧ observed.machine = m' := by
  constructor
  · intro fuel observed ran
    obtain ⟨more, runs⟩ := runsTo_of_run ran
    have whole := course.append runs.course
    have le : observed.machine.pointer ≤ p.size := by
      obtain ⟨heapSize, silent, console, rfl⟩ := isFresh_iff.mp fresh
      exact (whole.reachable.inBounds (Program.wellFormed_of_parse parsed)).pointer_le
    refine ⟨more, runs.course, runs.stop_eq_none_iff, ?_, ?_, ?_⟩
    · rintro rfl
      refine runs.endsByOnlyExit_iff ?_
      rw [course_nil_iff.mp course, ← fresh]
      rfl
    · exact runs.lacks_iff device le
    · intro error stops name
      rw [stops] at runs
      obtain ⟨-, -, -, rfl⟩ := runs.eq_of_name device name
      have last := whole.last_eq
      rw [show origin.last = none by rw [← fresh]; rfl, Option.or_none] at last
      refine ⟨by rw [last], rfl, ?_⟩
      rw [whole.log_head? fresh, Option.map_map]
      rfl
  · intro more m' rest complete next
    obtain ⟨stop, runs⟩ := rest.exists_runsTo complete next
    obtain ⟨fuel, observed, ran, hm, -⟩ := runs.exists_run journal
    exact ⟨fuel, observed, ran, hm⟩

/-- The only instruction of a program fails. A run after that has nothing left to do: it lacks its
termination, and names the instruction that failed and the step at which it did. -/
theorem unterminated_after_failed_discard :
    ∃ p s fuel observed error, Program.parse "discard.stl" .stl "SLL" = .ok p ∧
      Course p (start 0 false (.ofText "")) [s] s.after ∧ s.stop ≠ none ∧
      s.after.run fuel .empty p (⟨#[], ()⟩ : Journal Unit) = some observed ∧
      observed.stop = some (.fault error) ∧
      error.fault = .missingTermination (some s.instruction) ∧ error.step = some 0 := by
  have parsed : Program.parse "discard.stl" .stl "SLL" = .ok (.ofList
      [⟨.stack, .discard, none, some ⟨"discard.stl", 1, 1⟩⟩]) := rfl
  have course : Course (.ofList [⟨.stack, .discard, none, some ⟨"discard.stl", 1, 1⟩⟩])
      (start 0 false (.ofText "")) [_] _ := .cons rfl .nil
  have verdict := run_verdict parsed (isFresh_iff.mpr ⟨0, false, .ofText "", rfl⟩) course
    (fun _ raises => (Console.not_raises_ofText "" _ raises).elim) (⟨#[], ()⟩ : Journal Unit)
  obtain ⟨fuel, observed, ran, -⟩ := verdict.2 [] _ .nil (List.forall_mem_nil _) rfl
  obtain ⟨more, rest, -, -, lacks, names⟩ := verdict.1 fuel observed ran
  obtain rfl := rest.eq_nil_of_halted rfl
  rw [course_nil_iff.mp rest] at lacks
  obtain ⟨error, stops, name⟩ := lacks.mpr ⟨List.forall_mem_nil _, rfl, rfl⟩
  obtain ⟨fault, -, step⟩ := names error stops name
  exact ⟨_, _, fuel, observed, error, parsed, course, nofun, ran, stops, fault, step⟩

end Machine

end Whitespace
