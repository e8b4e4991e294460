import Whitespace.Proofs.Machine.History
import Whitespace.Proofs.Machine.Rules
import Mathlib.Logic.Function.Iterate

/-!
# Observed and unobserved machines

Observers can stop a machine, but they cannot steer it: whatever hooks and step rules raise, and
however often the machine is stepped and run again after that, it passes through the states that it
passes through unobserved. The states are told apart by the number of steps executed, and a step
that a rule stopped is not one of them.

Results:
1. `Machine.Driven.exists_iterate`: a driven machine has made so many unobserved steps.
2. `Machine.Driven.eq_of_executed`: machines that have made as many steps are the same, whoever
   observes them.
3. `Machine.observers_never_steer`: observers do not steer, and a step that a rule stopped is still
   to be made.
-/

namespace Whitespace.Machine

variable {Notes : Type} {r : Registry Notes} {p : Program} {origin m : Machine} {i : Instruction}

/-! ## Counting steps -/

theorem execute_executed (m : Machine) (i : Instruction) :
    (m.execute i).machine.executed = m.executed := by
  have h := executes m i
  generalize m.execute i = e at h ⊢
  cases h with
  | outputCharacter | outputNumber => rw [Effect.completed_machine, output_eq]
  | _ => rfl

theorem perform_executed (m : Machine) (i : Instruction) :
    (m.perform i).machine.executed = m.executed + 1 := by
  rw [perform_machine]
  exact execute_executed (m.record i) i

/-! ## Observed steps -/

theorem observedStep_empty (p : Program) (m : Machine) (journal : Journal Notes) :
    (m.observedStep .empty p journal).machine = (m.step p).machine := by
  cases hn : m.next p with
  | halted | outside =>
    unfold observedStep step
    rw [hn]
    rfl
  | instruction i =>
    rw [step_eq_perform hn]
    exact (observedStep_of_silent hn rfl).1

/-! ## Driven machines -/

/-- `Driven r p origin m`: under the observers of `r`, steps and runs lead from `origin` to `m`. A
step or a run need not complete, and each may find another journal. A machine in the midst of a run
is one that the steps of the run lead to. -/
inductive Driven (r : Registry Notes) (p : Program) (origin : Machine) : Machine → Prop
  | origin : Driven r p origin origin
  | step {m : Machine} (driven : Driven r p origin m) (journal : Journal Notes) :
      Driven r p origin (m.observedStep r p journal).machine
  | run {m : Machine} (driven : Driven r p origin m) {fuel : Nat} {journal : Journal Notes}
      {observed : Observed Notes} (ran : m.run fuel r p journal = some observed) :
      Driven r p origin observed.machine

/-- The machine after so many unobserved steps, none of which found it halted. -/
def HasMade (p : Program) (origin : Machine) (steps : Nat) (m : Machine) : Prop :=
  m.executed = origin.executed + steps ∧ (fun m => (m.step p).machine)^[steps] origin = m

theorem HasMade.perform {steps : Nat} (h : HasMade p origin steps m)
    (next : m.next p = .instruction i) : HasMade p origin (steps + 1) (m.perform i).machine := by
  obtain ⟨hcount, hm⟩ := h
  constructor
  · rw [perform_executed, hcount, Nat.add_assoc]
  · rw [Function.iterate_succ_apply', hm, step_eq_perform next]

/-- A driven machine has made as many unobserved steps as it has counted. -/
theorem Driven.exists_iterate (h : Driven r p origin m) : ∃ steps, HasMade p origin steps m := by
  have perform (m : Machine) (i : Instruction) : (∃ steps, HasMade p origin steps m) →
      m.next p = .instruction i → ∃ steps, HasMade p origin steps (m.perform i).machine := by
    rintro ⟨steps, hm⟩ next
    exact ⟨steps + 1, hm.perform next⟩
  -- Performing an instruction is all that changes a machine; rules and hooks that raise do not.
  induction h with
  | origin => exact ⟨0, rfl, rfl⟩
  | step _ journal ih => exact observedStep_preserves perform ih journal
  | run _ ran ih => exact run_preserves perform ih ran

theorem driven_iterate (p : Program) (origin : Machine) (steps : Nat) :
    Driven (.empty : Registry Unit) p origin ((fun m => (m.step p).machine)^[steps] origin) := by
  induction steps with
  | zero => exact .origin
  | succ steps ih =>
    rw [Function.iterate_succ_apply', ← observedStep_empty p _ ⟨#[], ()⟩]
    exact .step ih _

/-- Two driven machines are the same after as many steps, whoever observes them. -/
theorem Driven.eq_of_executed {Notes' : Type} {r' : Registry Notes'} {m' : Machine}
    (h : Driven r p origin m) (h' : Driven r' p origin m') (same : m.executed = m'.executed) :
    m = m' := by
  obtain ⟨steps, hcount, hm⟩ := h.exists_iterate
  obtain ⟨steps', hcount', hm'⟩ := h'.exists_iterate
  have hsteps : steps = steps' := by omega
  rw [← hm, ← hm', hsteps]

/-- Observers stop a machine, but do not steer it. A machine that steps and runs lead to under
observers is one that they lead to unobserved, and the only one there after as many steps. Where a
rule raises, the machine stays as it is, its next instruction next; and the step that is made once
no rule raises is the unobserved one. -/
theorem observers_never_steer (r : Registry Notes) (p : Program) (origin : Machine) :
    (∀ m, Driven r p origin m → Driven (.empty : Registry Unit) p origin m ∧
      ∀ m', Driven (.empty : Registry Unit) p origin m' → m'.executed = m.executed → m' = m) ∧
    ∀ m i journal raised, m.next p = .instruction i →
      (r.beforeStep m (r.snapshot m i) journal).2 = some raised →
      ((m.observedStep r p journal).machine = m ∧
        (m.observedStep r p journal).stop = some (m.ruleStop i raised)) ∧
      ∀ later, (r.beforeStep m (r.snapshot m i) later).2 = none →
        (m.observedStep r p later).machine = (m.perform i).machine ∧
          (m.observedStep r p later).stop = (m.perform i).stop := by
  refine ⟨?_, ?_⟩
  · intro m driven
    refine ⟨?_, fun m' driven' same => driven'.eq_of_executed driven same⟩
    obtain ⟨steps, -, rfl⟩ := driven.exists_iterate
    exact driven_iterate p origin steps
  · intro m i journal raised next raises
    exact ⟨observedStep_of_raised next raises, fun _ silent => observedStep_of_silent next silent⟩

def raiseOnce : StepRule Nat where
  every := 1
  name := "once"
  owner := "inline"
  wantsHeap := false
  action := .react fun _ _ calls =>
    (calls + 1, if calls = 0 then some (.foreign ⟨"RuntimeError", "once"⟩) else none)

/-- A machine that was stopped before its first step makes that step when it is stepped again, and
then is the machine that has made it unobserved. -/
theorem interrupted_step_is_made :
    ∃ p origin m i, origin.next p = .instruction i ∧
      (origin.observedStep ⟨[], [raiseOnce]⟩ p ⟨#[], 0⟩).machine = origin ∧
      (origin.observedStep ⟨[], [raiseOnce]⟩ p ⟨#[], 1⟩).machine = (origin.perform i).machine ∧
      Driven ⟨[], [raiseOnce]⟩ p origin m ∧ m.stack = [7] ∧
      (origin.observedStep (.empty : Registry Unit) p ⟨#[], ()⟩).machine = m := by
  have next : (start 0 false (.ofText "")).next
      (.ofList [⟨.stack, .push, some (.number 7), none⟩]) =
        .instruction ⟨.stack, .push, some (.number 7), none⟩ := rfl
  obtain ⟨agree, stopped⟩ := observers_never_steer ⟨[], [raiseOnce]⟩ _ (start 0 false (.ofText ""))
  obtain ⟨⟨stays, -⟩, resumes⟩ := stopped _ _ ⟨#[], 0⟩ _ next rfl
  have same := (agree _ (.step (.step .origin ⟨#[], 0⟩) ⟨#[], 1⟩)).2 _ (.step .origin ⟨#[], ()⟩) rfl
  exact ⟨_, _, _, _, next, stays, (resumes ⟨#[], 1⟩ rfl).1,
    .step (.step .origin ⟨#[], 0⟩) ⟨#[], 1⟩, rfl, same⟩

end Whitespace.Machine
