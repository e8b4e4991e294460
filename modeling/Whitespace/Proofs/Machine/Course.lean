import Whitespace.Proofs.Machine.Completion
import Whitespace.Proofs.Machine.Observation

/-!
# Courses

The course of a machine is the list of the steps that it makes, each with the machine that makes it,
whether or not it completes. It tells what happened at which step of a history, and what came before
and after.

Results:
1. `Machine.driven_iff_exists_course`: unobserved steps and runs lead where courses lead.
2. `Machine.course_split_iff`: a step of a course with what comes before and after it.
3. `Machine.Course.history`: what holds of a course is told from its last step.
4. `Machine.Course.last_eq`, `Machine.Course.log_eq`: what a machine remembers of its course.
-/

namespace Whitespace

/-- A step: the machine that makes it, and the instruction that it executes. -/
structure Step where
  before : Machine
  instruction : Instruction

namespace Step

def after (s : Step) : Machine :=
  (s.before.perform s.instruction).machine

/-- Why a step did not complete, if it did not. -/
def stop (s : Step) : Option Stop :=
  (s.before.perform s.instruction).stop

/-- What a machine remembers of a step. -/
def entry (s : Step) : LogEntry :=
  ⟨s.before.executed, s.before.pointer, s.instruction⟩

theorem stop_eq_none_iff (s : Step) :
    s.stop = none ↔ ((s.before.record s.instruction).execute s.instruction).stop = none :=
  Option.map_eq_none_iff

end Step

namespace Machine

/-- A machine that has executed nothing: a new one, or one that was reset. -/
def IsFresh (m : Machine) : Prop :=
  m.reset = m

theorem isFresh_iff {m : Machine} :
    m.IsFresh ↔ ∃ heapSize silent console, m = start heapSize silent console := by
  constructor
  · intro h
    exact ⟨_, _, _, h.symm⟩
  · rintro ⟨heapSize, silent, console, rfl⟩
    rfl

theorem isFresh_reset (m : Machine) : m.reset.IsFresh :=
  rfl

/-- `Course p m made m'`: from `m` the machine makes the steps `made`, in this order, and then is
`m'`. A step need not complete. -/
inductive Course (p : Program) : Machine → List Step → Machine → Prop
  | nil {m : Machine} : Course p m [] m
  | cons {m m' : Machine} {i : Instruction} {made : List Step} (next : m.next p = .instruction i)
      (rest : Course p (m.perform i).machine made m') : Course p m (⟨m, i⟩ :: made) m'

variable {p : Program} {m m' m'' : Machine} {made more : List Step} {s : Step}

/-! ## Parts of a course -/

theorem course_nil_iff : Course p m [] m' ↔ m' = m := by
  constructor
  · rintro ⟨⟩
    rfl
  · rintro rfl
    exact .nil

theorem course_cons_iff :
    Course p m (s :: made) m' ↔
      s.before = m ∧ m.next p = .instruction s.instruction ∧ Course p s.after made m' := by
  constructor
  · rintro ⟨⟩
    exact ⟨rfl, by assumption, by assumption⟩
  · rintro ⟨rfl, next, rest⟩
    exact .cons next rest

theorem course_append_iff :
    Course p m (made ++ more) m'' ↔ ∃ m', Course p m made m' ∧ Course p m' more m'' := by
  induction made generalizing m with
  | nil => simp [course_nil_iff]
  | cons s made ih =>
    simp only [List.cons_append, course_cons_iff, ih]
    constructor
    · rintro ⟨hs, next, m', first, second⟩
      exact ⟨m', ⟨hs, next, first⟩, second⟩
    · rintro ⟨m', ⟨hs, next, first⟩, second⟩
      exact ⟨hs, next, m', first, second⟩

/-- A step of a course, with the steps before and after it. -/
theorem course_split_iff :
    Course p m (made ++ s :: more) m' ↔
      Course p m made s.before ∧ s.before.next p = .instruction s.instruction ∧
        Course p s.after more m' := by
  simp only [course_append_iff, course_cons_iff]
  constructor
  · rintro ⟨_, first, rfl, next, rest⟩
    exact ⟨first, next, rest⟩
  · rintro ⟨first, next, rest⟩
    exact ⟨_, first, rfl, next, rest⟩

theorem course_concat_iff :
    Course p m (made ++ [s]) m' ↔
      Course p m made s.before ∧ s.before.next p = .instruction s.instruction ∧ m' = s.after := by
  rw [course_split_iff, course_nil_iff]

theorem Course.append (h : Course p m made m') (h' : Course p m' more m'') :
    Course p m (made ++ more) m'' :=
  course_append_iff.mpr ⟨m', h, h'⟩

/-- The steps of a course are told by the machine that it starts from and by their number. -/
theorem Course.unique {made' : List Step} (h : Course p m made m') (h' : Course p m made' m'')
    (length : made.length = made'.length) : made = made' ∧ m' = m'' := by
  induction h generalizing made' with
  | nil =>
    obtain rfl := List.length_eq_zero_iff.mp length.symm
    exact ⟨rfl, (course_nil_iff.mp h').symm⟩
  | cons next _ ih =>
    cases h' with
    | nil => cases length
    | cons next' rest' =>
      cases next.symm.trans next'
      obtain ⟨rfl, rfl⟩ := ih rest' (Nat.succ.inj length)
      exact ⟨rfl, rfl⟩

/-! ## Histories -/

/-- What holds of no steps, and of a course if it holds of the course before its last step, holds of
every course. -/
theorem Course.history {P : List Step → Machine → Prop} (h : Course p m made m') (start : P [] m)
    (step : ∀ made s, Course p m made s.before → s.before.next p = .instruction s.instruction →
      P made s.before → P (made ++ [s]) s.after) : P made m' := by
  induction made using List.reverseRecOn generalizing m' with
  | nil =>
    rw [course_nil_iff.mp h]
    exact start
  | append_singleton made s ih =>
    obtain ⟨first, next, rfl⟩ := course_concat_iff.mp h
    exact step made s first next (ih first)

theorem Course.driven (h : Course p m made m') : Driven (.empty : Registry Unit) p m m' := by
  refine h.history (P := fun _ m' => Driven _ p m m') .origin ?_
  intro made s _ next driven
  have stepped := driven.step ⟨#[], ()⟩
  rwa [observedStep_empty, step_eq_perform next] at stepped

theorem Driven.reachable {Notes : Type} {r : Registry Notes} (h : Driven r p m m') :
    Reachable r p m m' := by
  induction h with
  | origin => exact .origin
  | step _ journal ih => exact ih.step journal
  | run _ ran ih => exact ih.run ran

theorem Course.reachable (h : Course p m made m') : Reachable (.empty : Registry Unit) p m m' :=
  h.driven.reachable

/-- Unobserved steps and runs, in any order, lead where the courses lead. -/
theorem driven_iff_exists_course :
    Driven (.empty : Registry Unit) p m m' ↔ ∃ made, Course p m made m' := by
  constructor
  · intro h
    have perform (last : Machine) (i : Instruction) : (∃ made, Course p m made last) →
        last.next p = .instruction i → ∃ made, Course p m made (last.perform i).machine := by
      rintro ⟨made, course⟩ next
      exact ⟨made ++ [⟨last, i⟩], course_concat_iff.mpr ⟨course, next, rfl⟩⟩
    induction h with
    | origin => exact ⟨[], .nil⟩
    | step _ journal ih => exact observedStep_preserves perform ih journal
    | run _ ran ih => exact run_preserves perform ih ran
  · rintro ⟨made, h⟩
    exact h.driven

/-- The steps that a machine proceeds by are a course. -/
theorem Proceeds.exists_course {Notes : Type} {r : Registry Notes}
    {journal journal' : Journal Notes} (h : Proceeds r p m journal m' journal') :
    ∃ made, Course p m made m' ∧ ∀ s ∈ made, s.stop = none := by
  induction h with
  | refl => exact ⟨[], .nil, by simp⟩
  | step next _ completes _ ih =>
    obtain ⟨made, course, complete⟩ := ih
    exact ⟨_, .cons next course, List.forall_mem_cons.mpr ⟨completes, complete⟩⟩

/-- A course of steps that complete is what an unobserved machine proceeds by. -/
theorem Course.proceeds {Notes : Type} (h : Course p m made m')
    (complete : ∀ s ∈ made, s.stop = none) (journal : Journal Notes) :
    Proceeds .empty p m journal m' journal := by
  induction h with
  | nil => exact .refl
  | cons next _ ih =>
    obtain ⟨completes, complete⟩ := List.forall_mem_cons.mp complete
    exact .step next rfl completes (ih complete)

/-! ## What a machine remembers -/

theorem execute_memory (m : Machine) (i : Instruction) :
    (m.execute i).machine.last = m.last ∧ (m.execute i).machine.log = m.log := by
  have h := executes m i
  generalize m.execute i = e at h ⊢
  cases h with
  | outputCharacter | outputNumber =>
    rw [Effect.completed_machine, output_eq]
    exact ⟨rfl, rfl⟩
  | _ => exact ⟨rfl, rfl⟩

theorem Step.after_executed (s : Step) : s.after.executed = s.before.executed + 1 :=
  perform_executed s.before s.instruction

theorem Step.after_last (s : Step) : s.after.last = some s.instruction :=
  (execute_memory (s.before.record s.instruction) s.instruction).1

theorem Step.after_log (s : Step) : s.after.log = (s.entry :: s.before.log).take logLimit :=
  (execute_memory (s.before.record s.instruction) s.instruction).2

theorem Course.executed_eq (h : Course p m made m') : m'.executed = m.executed + made.length := by
  refine h.history (P := fun made m' => m'.executed = m.executed + made.length) rfl ?_
  intro made s _ _ ih
  rw [Step.after_executed, ih, List.length_append, List.length_singleton, Nat.add_assoc]

/-- The instruction executed last is that of the last step. -/
theorem Course.last_eq (h : Course p m made m') :
    m'.last = (made.getLast?.map Step.instruction).or m.last := by
  refine h.history (P := fun made m' => m'.last = (made.getLast?.map Step.instruction).or m.last)
    rfl ?_
  intro made s _ _ _
  rw [Step.after_last, List.getLast?_concat, Option.map_some, Option.some_or]

/-- A machine that was fresh remembers the latest steps of its course, newest first. -/
theorem Course.log_eq (h : Course p m made m') (fresh : m.IsFresh) :
    m'.log = (made.map Step.entry).reverse.take logLimit := by
  refine h.history (P := fun made m' => m'.log = (made.map Step.entry).reverse.take logLimit)
    (by rw [← fresh]; rfl) ?_
  intro made s _ _ ih
  rw [Step.after_log, ih, List.map_append, List.reverse_append, List.map_singleton,
    List.reverse_singleton, List.singleton_append]
  show s.entry :: _ = s.entry :: _
  rw [List.take_take]
  rfl

theorem Course.log_head? (h : Course p m made m') (fresh : m.IsFresh) :
    m'.log.head? = made.getLast?.map Step.entry := by
  rw [h.log_eq fresh, List.head?_take, if_neg (by decide), List.head?_reverse, List.getLast?_map]

end Machine

end Whitespace
