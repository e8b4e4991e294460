import Mathlib.Data.Nat.PSub
import Whitespace.Proofs.Machine.Course
import Whitespace.Proofs.Machine.Lifecycle

/-!
# Step rules that fail

A rule that raises before an instruction ends the run. The error names the instruction and its
position, but not the step: the run fills in the step that is remembered last, and this is the one
before. Before the first instruction no step is remembered, and the error is left without one. An
interrupt is no error, and names none of them.

Results:
1. `Machine.Reachable.latest_step`: along a history the step remembered last is the one before the
   next.
2. `Machine.StoppedByRule.run_eq`: what a run comes to that a rule stops.
3. `Machine.rule_failure_step_iff`: which step its error names, and when it is the right one.
-/

namespace Whitespace.Machine

variable {Notes : Type} {r : Registry Notes} {p : Program} {origin m m' : Machine} {i : Instruction}
  {raised : Raised} {journal : Journal Notes}

/-- `StoppedByRule r p m journal m' i raised`: a run of `m` proceeds to `m'`, where a rule raises
before the instruction `i`. No hook has raised on its start. -/
inductive StoppedByRule (r : Registry Notes) (p : Program) (m : Machine) (journal : Journal Notes)
    (m' : Machine) (i : Instruction) (raised : Raised) : Prop
  | intro {started before told : Journal Notes}
      (announced : announce r m Event.startName none journal = (started, none))
      (proceeds : Proceeds r p m started m' before)
      (next : m'.next p = .instruction i)
      (raises : r.beforeStep m' (r.snapshot m' i) before = (told, some raised))

/-- The step remembered last is the one before the next, if the machine has made any. -/
theorem Reachable.latest_step (reachable : Reachable r p origin m) (fresh : origin.IsFresh) :
    m.log.head?.map LogEntry.step = m.executed.ppred := by
  refine reachable.invariant
    (P := fun m => m.log.head?.map LogEntry.step = m.executed.ppred) (by rw [← fresh]; rfl) ?_
    fun _ _ => rfl
  intro m i _ _
  have log : (m.perform i).machine.log = (_ :: m.log).take logLimit := Step.after_log ⟨m, i⟩
  rw [log, perform_executed]
  rfl

/-- A run that a rule stops comes to an end, and that is what is concluded from what the rule has
raised, on the machine as the rule has found it. -/
theorem StoppedByRule.run_eq (h : StoppedByRule r p m journal m' i raised) :
    ∃ before told, r.beforeStep m' (r.snapshot m' i) before = (told, some raised) ∧
      (∃ fuel observed, m.run fuel r p journal = some observed) ∧
      ∀ fuel observed, m.run fuel r p journal = some observed →
        observed = conclude r ⟨m', told, some (m'.ruleStop i raised)⟩ := by
  obtain @⟨started, before, told, announced, proceeds, next, raises⟩ := h
  have stops : m'.observedStep r p before = ⟨m', told, some (m'.ruleStop i raised)⟩ :=
    observedStep_eq_of_raised next raises
  have last : m'.loop r p 1 before = some (m'.observedStep r p before) :=
    loop_of_stop (by rw [next]; nofun) (by rw [stops])
  rw [stops] at last
  refine ⟨before, told, raises, ?_, fun fuel observed ran => ?_⟩
  · obtain ⟨fuel, looped⟩ := proceeds.exists_loop last
    exact ⟨fuel, _, (run_of_announced announced).trans (congrArg (Option.map _) looped)⟩
  · rw [run_of_announced announced] at ran
    obtain ⟨ended, looped, rfl⟩ := Option.map_eq_some_iff.mp ran
    rw [proceeds.loop_eq last looped]

theorem reportStop_eq_fault {error reported : RuntimeError} {answer : Option Stop}
    (h : reportStop error answer = .fault reported) :
    ∃ cause, reported = { error with cause := cause } := by
  rcases answer with _ | answer
  · cases h
    exact ⟨error.cause, rfl⟩
  · cases answer <;> cases h
    exact ⟨_, rfl⟩

/-- What an error that a rule has caused is reported as: itself, but for its step and its cause. -/
theorem conclude_ruleStop {told : Journal Notes} {error : RuntimeError}
    (stops : (conclude r ⟨m, told, some (m.ruleStop i raised)⟩).stop = some (.fault error)) :
    ∃ own cause, m.ruleStop i raised = .fault own ∧
      error = { m.placed own with cause := cause } := by
  cases stopped : m.ruleStop i raised with
  | fault own =>
    rw [stopped] at stops
    obtain ⟨cause, rfl⟩ := reportStop_eq_fault (Option.some.inj stops)
    exact ⟨own, cause, rfl, rfl⟩
  | _ =>
    rw [stopped] at stops
    cases stops

/-- A run that a rule stops before an instruction, whatever was stepped, run and reset before. It
comes to an end, on the machine that the rule was called on, and if no observer interrupts, by a
runtime error. Unless what the rule raises is a runtime error of its own, the error of the run names
the instruction and its position, and the step before, or none if there is none. If it is one, it
keeps the step that it brings along. So the step is the right one exactly if the rule has raised a
runtime error that brings it along. -/
theorem rule_failure_step_iff (fresh : origin.IsFresh) (reachable : Reachable r p origin m)
    (stopped : StoppedByRule r p m journal m' i raised) :
    (∃ fuel observed, m.run fuel r p journal = some observed) ∧
      ∀ fuel observed, m.run fuel r p journal = some observed →
        observed.machine = m' ∧
        (r.NeverInterrupts → ∃ error, observed.stop = some (.fault error)) ∧
        ∀ error, observed.stop = some (.fault error) →
          ((∀ own, raised ≠ .runtime own) →
            error.fault.instruction? = some i ∧ error.pointer = some m'.pointer ∧
              error.step = m'.executed.ppred) ∧
          (∀ own, raised = .runtime own → error.step = own.step.or m'.executed.ppred) ∧
          (error.step = some m'.executed ↔
            ∃ own, raised = .runtime own ∧ own.step = some m'.executed) := by
  obtain ⟨before, told, raises, ends, concludes⟩ := stopped.run_eq
  refine ⟨ends, fun fuel observed ran => ?_⟩
  obtain rfl := concludes fuel observed ran
  obtain ⟨-, proceeds, -, -⟩ := stopped
  refine ⟨conclude_machine _, fun never => ?_, fun error stops => ?_⟩
  · obtain ⟨own, stopped⟩ := never.beforeStep raises
    rw [stopped]
    exact report_stop never m' told own
  obtain ⟨own, cause, stopped, rfl⟩ := conclude_ruleStop stops
  have latest := (proceeds.reachable reachable).latest_step fresh
  have behind : m'.executed.ppred ≠ some m'.executed := by
    intro h
    have := Nat.ppred_eq_some.mp h
    omega
  cases raised with
  | interrupt notice => cases stopped
  | device notice | foreign notice =>
    cases stopped
    simp [placed, latest, behind, Fault.instruction?]
  | runtime other =>
    cases stopped
    cases known : own.step <;> simp [placed, known, latest, behind]

def raiseAt (step : Int) : StepRule Unit where
  every := 1
  name := "raise"
  owner := "inline"
  wantsHeap := false
  action := .react fun _ snapshot notes =>
    (notes, if snapshot.step = step then some (.foreign ⟨"RuntimeError", "boom"⟩) else none)

theorem raiseAt_never (step : Int) :
    ∀ rule ∈ [raiseAt step], ∀ m snapshot journal notice,
      (rule.call m snapshot journal).2 ≠ some (.interrupt notice) := by
  intro rule member m snapshot journal notice
  obtain rfl := List.mem_singleton.mp member
  show (if snapshot.step = step then some (Raised.foreign ⟨"RuntimeError", "boom"⟩) else none) ≠ _
  split <;> nofun

def pushThenExit : Program :=
  .ofList [⟨.stack, .push, some (.number 1), none⟩, ⟨.flow, .exit, none, none⟩]

/-- A rule that raises before the first instruction is reported at no step. -/
theorem first_step_failure_unplaced :
    ∃ m' i fuel observed error,
      StoppedByRule ⟨[], [raiseAt 0]⟩ pushThenExit (start 0 false (.ofText "")) ⟨#[], ()⟩ m' i
        (.foreign ⟨"RuntimeError", "boom"⟩) ∧ m'.executed = 0 ∧
      (start 0 false (.ofText "")).run fuel ⟨[], [raiseAt 0]⟩ pushThenExit ⟨#[], ()⟩ =
        some observed ∧
      observed.stop = some (.fault error) ∧ error.step = none := by
  have fresh : (start 0 false (.ofText "")).IsFresh := rfl
  have stopped : StoppedByRule ⟨[], [raiseAt 0]⟩ pushThenExit (start 0 false (.ofText ""))
      ⟨#[], ()⟩ (start 0 false (.ofText "")) ⟨.stack, .push, some (.number 1), none⟩
      (.foreign ⟨"RuntimeError", "boom"⟩) := ⟨rfl, .refl, rfl, rfl⟩
  have never : (⟨[], [raiseAt 0]⟩ : Registry Unit).NeverInterrupts :=
    ⟨fun _ member => absurd member List.not_mem_nil, raiseAt_never 0⟩
  obtain ⟨⟨fuel, observed, ran⟩, reports⟩ := rule_failure_step_iff fresh .origin stopped
  obtain ⟨-, ends, places⟩ := reports fuel observed ran
  obtain ⟨error, stops⟩ := ends never
  have foreign : ∀ own, Raised.foreign ⟨"RuntimeError", "boom"⟩ ≠ .runtime own :=
    fun own same => by cases same
  obtain ⟨-, -, step⟩ := (places error stops).1 foreign
  exact ⟨_, _, fuel, observed, error, stopped, rfl, ran, stops, step⟩

/-- A rule that raises before the instruction of step 1 is reported at step 0, together with that
instruction and its position. -/
theorem second_step_failure_misplaced :
    ∃ m' i observed error,
      StoppedByRule ⟨[], [raiseAt 1]⟩ pushThenExit (start 0 false (.ofText "")) ⟨#[], ()⟩ m' i
        (.foreign ⟨"RuntimeError", "boom"⟩) ∧ m'.executed = 1 ∧
      (start 0 false (.ofText "")).run 2 ⟨[], [raiseAt 1]⟩ pushThenExit ⟨#[], ()⟩ =
        some observed ∧
      observed.stop = some (.fault error) ∧ error.fault.instruction? = some i ∧
      error.pointer = some 1 ∧ error.step = some 0 := by
  exact ⟨_, _, _, _, ⟨rfl, .step rfl rfl rfl .refl, rfl, rfl⟩, rfl, rfl, rfl, rfl, rfl, rfl⟩

end Whitespace.Machine
