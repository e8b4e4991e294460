import Mathlib.Data.List.Forall2
import Whitespace.Proofs.Machine.Likeness
import Whitespace.Proofs.Machine.Termination

/-!
# Machines side by side

Machines that are alike make steps that are alike, and their runs come to the same.

Results:
1. `Machine.Course.alike`: the courses of machines that are alike.
2. `Machine.RunsTo.alike`: their runs.
-/

namespace Whitespace

/-- The steps execute the same instruction on machines that are alike, and complete or not for the
same reason. -/
structure Likeness.Steps (L : Likeness) (s s' : Step) : Prop where
  before : L.Machines s.before s'.before
  instruction : s'.instruction = s.instruction
  stop : s'.stop = s.stop

namespace Machine

variable {L : Likeness} {p : Program} {m m' w w' : Machine} {made made' : List Step}
  {stop : Option Stop}

/-- From a machine that is alike, steps that are alike lead to one that is alike. -/
theorem Course.alike (h : Course p m made m') (alike : L.Machines m w)
    (fits : ∀ s ∈ made, L.Fits s.before s.instruction) :
    ∃ made' w', Course p w made' w' ∧ List.Forall₂ L.Steps made made' ∧ L.Machines m' w' := by
  induction h generalizing w with
  | nil => exact ⟨[], w, .nil, .nil, alike⟩
  | cons next _ ih =>
    obtain ⟨here, fits⟩ := List.forall_mem_cons.mp fits
    have effects := alike.perform here
    obtain ⟨made', w', course, steps, last⟩ := ih effects.machine fits
    exact ⟨_, w', .cons ((alike.next p).trans next) course,
      .cons ⟨alike, rfl, effects.stop⟩ steps, last⟩

theorem exists_concat {R : Step → Step → Prop} {last : Step}
    (h : List.Forall₂ R (made ++ [last]) made') :
    ∃ before' last', made' = before' ++ [last'] ∧ List.Forall₂ R made before' ∧ R last last' := by
  induction made generalizing made' with
  | nil =>
    cases h with
    | cons same rest =>
      cases rest
      exact ⟨[], _, rfl, .nil, same⟩
  | cons s made ih =>
    cases h with
    | cons same rest =>
      obtain ⟨before', last', rfl, steps, ends⟩ := ih rest
      exact ⟨_ :: before', last', rfl, .cons same steps, ends⟩

theorem complete_alike (steps : List.Forall₂ L.Steps made made')
    (complete : ∀ s ∈ made, s.stop = none) : ∀ s ∈ made', s.stop = none := by
  induction steps with
  | nil => exact complete
  | cons same _ ih =>
    obtain ⟨completes, complete⟩ := List.forall_mem_cons.mp complete
    exact List.forall_mem_cons.mpr ⟨same.stop.trans completes, ih complete⟩

/-- A run that makes steps alike comes to the same. -/
theorem RunsTo.alike (h : RunsTo p m made m' stop) (course : Course p w made' w')
    (steps : List.Forall₂ L.Steps made made') (alike : L.Machines m' w') :
    RunsTo p w made' w' stop := by
  cases h with
  | exited _ complete done =>
    exact .exited course (complete_alike steps complete) (alike.done.trans done)
  | unterminated _ complete going past =>
    have placed : w'.placed (.ofFault (.missingTermination w'.last)) =
        m'.placed (.ofFault (.missingTermination m'.last)) := by
      unfold Machine.placed
      rw [alike.log, alike.last]
    rw [← placed]
    rw [← alike.pointer] at past
    exact .unterminated course (complete_alike steps complete) (alike.done.trans going) past
  | outside _ complete next =>
    exact .outside course (complete_alike steps complete) ((alike.next p).trans next)
  | stopped _ complete stops =>
    obtain ⟨before, last, rfl, steps, same⟩ := exists_concat steps
    obtain rfl := (course_concat_iff.mp course).2.2
    exact .stopped course (complete_alike steps complete) (same.stop.trans stops)

end Machine

end Whitespace
