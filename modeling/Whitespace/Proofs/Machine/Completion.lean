import Whitespace.Proofs.Machine.Endings

/-!
# How a run ends

A run makes steps that complete, up to one that does not or to a machine that has halted. It is
successful if the last step was an exit and no observer has raised. Otherwise it ends by a runtime
error or a division by zero, unless it comes to a line of more digits than are converted, or an
observer interrupts it.

Results:
1. `Machine.Proceeds.loop`, `Machine.exists_proceeds_of_loop`: the steps that a loop makes.
2. `Registry.NeverInterrupts.announce`: what observers that never interrupt raise is an error.
3. `Machine.run_stop_eq_none_iff`, `Machine.EndsByExit.exists_run`: the runs that are successful.
4. `Machine.run_in_taxonomy_iff`: the runs that end by an exit, an error or a division by zero.
-/

namespace Whitespace

theorem Console.not_raises_ofText (text : String) (raised : Raised) :
    ¬(ofText text).Raises raised :=
  fun h => h

/-- What hooks and rules raise are errors; none of them interrupts the run. -/
structure Registry.NeverInterrupts {Notes : Type} (r : Registry Notes) : Prop where
  hooks : ∀ hook ∈ r.hooks, ∀ event notes notice,
    (hook.react event notes).2 ≠ some (.interrupt notice)
  rules : ∀ rule ∈ r.rules, ∀ m snapshot journal notice,
    (rule.call m snapshot journal).2 ≠ some (.interrupt notice)

namespace Machine

variable {Notes : Type} {r : Registry Notes} {p : Program}

/-- `Proceeds r p m journal m' journal'`: steps that complete lead from `m` to `m'`, and the journal
that they find as `journal` is `journal'` after them. No rule raises before any of the steps. -/
inductive Proceeds (r : Registry Notes) (p : Program) :
    Machine → Journal Notes → Machine → Journal Notes → Prop
  | refl {m : Machine} {journal : Journal Notes} : Proceeds r p m journal m journal
  | step {m m' : Machine} {i : Instruction} {journal told journal' : Journal Notes}
      (next : m.next p = .instruction i)
      (silent : r.beforeStep m (r.snapshot m i) journal = (told, none))
      (completes : (m.perform i).stop = none)
      (proceeds : Proceeds r p (m.perform i).machine told m' journal') :
      Proceeds r p m journal m' journal'

/-- `ComesTo r p origin journal m i told`: a run from `origin` comes to execute the instruction `i`
on the machine `m`, and the journal is `told` by then. No hook and no rule has raised so far. -/
inductive ComesTo (r : Registry Notes) (p : Program) (origin : Machine) (journal : Journal Notes)
    (m : Machine) (i : Instruction) (told : Journal Notes) : Prop
  | intro {started before : Journal Notes}
      (announced : announce r origin Event.startName none journal = (started, none))
      (proceeds : Proceeds r p origin started m before)
      (next : m.next p = .instruction i)
      (silent : r.beforeStep m (r.snapshot m i) before = (told, none))

/-- A run from `origin` comes to an exit, and no hook raises on the end that is announced then. -/
def EndsByExit (r : Registry Notes) (p : Program) (origin : Machine) (journal : Journal Notes) :
    Prop :=
  ∃ m i told, ComesTo r p origin journal m i told ∧ i.Is .exit ∧
    (announce r (m.perform i).machine Event.endName none told).2 = none

/-- A run from `origin` comes to read a line that is a number of more digits than are converted. -/
def ComesToOverlong (r : Registry Notes) (p : Program) (origin : Machine)
    (journal : Journal Notes) : Prop :=
  ∃ m i told digits, ComesTo r p origin journal m i told ∧ m.ReadsOverlong i digits

variable {m m' origin : Machine} {i : Instruction} {journal told journal' : Journal Notes}
  {observed : Observed Notes} {fuel : Nat}

/-! ## Loops -/

theorem next_of_done (h : m.done = true) : m.next p = .halted := by
  unfold next
  rw [if_pos (.inl h)]

/-- A step that completes has an instruction to execute, and no rule has raised before it. -/
theorem observedStep_of_completed (next : m.next p ≠ .halted)
    (h : (m.observedStep r p journal).stop = none) :
    ∃ i told, m.next p = .instruction i ∧
      r.beforeStep m (r.snapshot m i) journal = (told, none) ∧ (m.perform i).stop = none := by
  unfold observedStep at h
  split at h
  · contradiction
  · cases h
  · next i hn =>
    split at h
    · cases h
    · next told silent => exact ⟨i, told, hn, silent, h⟩

theorem loop_of_halted (next : m.next p = .halted) :
    m.loop r p (fuel + 1) journal = some ⟨m, journal, none⟩ := by
  unfold loop
  rw [next]

theorem loop_of_stop {stop : Stop} (next : m.next p ≠ .halted)
    (h : (m.observedStep r p journal).stop = some stop) :
    m.loop r p (fuel + 1) journal = some (m.observedStep r p journal) := by
  unfold loop
  split
  · contradiction
  · simp only [h]

theorem loop_of_completed (next : m.next p ≠ .halted)
    (h : (m.observedStep r p journal).stop = none) :
    m.loop r p (fuel + 1) journal =
      (m.observedStep r p journal).machine.loop r p fuel (m.observedStep r p journal).journal := by
  rw [loop]
  split
  · contradiction
  · simp only [h]

/-- The steps that a machine proceeds by are made at the start of a loop. -/
theorem Proceeds.loop (h : Proceeds r p m journal m' journal') :
    ∃ steps, ∀ fuel, m.loop r p (fuel + steps) journal = m'.loop r p fuel journal' := by
  induction h with
  | refl => exact ⟨0, fun _ => rfl⟩
  | step next silent completes _ ih =>
    obtain ⟨steps, ih⟩ := ih
    refine ⟨steps + 1, fun fuel => ?_⟩
    have hs := observedStep_eq_of_silent next silent
    rw [← Nat.add_assoc, loop_of_completed (by rw [next]; nofun) (by rw [hs, completes]), hs]
    exact ih fuel

/-- What a loop comes to at the machine that it proceeds to. -/
theorem Proceeds.exists_loop (h : Proceeds r p m journal m' journal')
    (last : m'.loop r p 1 journal' = some observed) :
    ∃ fuel, m.loop r p fuel journal = some observed := by
  obtain ⟨steps, hsteps⟩ := h.loop
  exact ⟨1 + steps, (hsteps 1).trans last⟩

/-- A loop proceeds to a machine that has halted, or to a step that does not complete. -/
theorem exists_proceeds_of_loop (h : m.loop r p fuel journal = some observed) :
    ∃ m' journal', Proceeds r p m journal m' journal' ∧
      (m'.next p = .halted ∧ observed = ⟨m', journal', none⟩ ∨
        m'.next p ≠ .halted ∧ observed = m'.observedStep r p journal' ∧ observed.stop ≠ none) := by
  induction fuel generalizing m journal with
  | zero => cases h
  | succ fuel ih =>
    by_cases hh : m.next p = .halted
    · rw [loop_of_halted hh] at h
      cases h
      exact ⟨m, journal, .refl, .inl ⟨hh, rfl⟩⟩
    cases hs : (m.observedStep r p journal).stop with
    | some stop =>
      rw [loop_of_stop hh hs] at h
      cases h
      exact ⟨m, journal, .refl, .inr ⟨hh, rfl, by rw [hs]; nofun⟩⟩
    | none =>
      rw [loop_of_completed hh hs] at h
      obtain ⟨m', journal', proceeds, last⟩ := ih h
      obtain ⟨i, told, next, silent, completes⟩ := observedStep_of_completed hh hs
      rw [observedStep_eq_of_silent next silent] at proceeds
      exact ⟨m', journal', .step next silent completes proceeds, last⟩

/-- More fuel changes nothing. -/
theorem loop_succ (h : m.loop r p fuel journal = some observed) :
    m.loop r p (fuel + 1) journal = some observed := by
  induction fuel generalizing m journal with
  | zero => cases h
  | succ fuel ih =>
    by_cases hh : m.next p = .halted
    · rw [loop_of_halted hh] at h ⊢
      exact h
    cases hs : (m.observedStep r p journal).stop with
    | some stop =>
      rw [loop_of_stop hh hs] at h ⊢
      exact h
    | none =>
      rw [loop_of_completed hh hs] at h ⊢
      exact ih h

theorem loop_unique {fuel' : Nat} {observed' : Observed Notes}
    (h : m.loop r p fuel journal = some observed) (h' : m.loop r p fuel' journal = some observed') :
    observed = observed' := by
  have hmono {fuel : Nat} {observed : Observed Notes} (h : m.loop r p fuel journal = some observed)
      (more : Nat) : m.loop r p (fuel + more) journal = some observed := by
    induction more with
    | zero => exact h
    | succ more ih => exact loop_succ ih
  have hleft := hmono h fuel'
  rw [Nat.add_comm, hmono h' fuel] at hleft
  exact (Option.some.inj hleft).symm

/-- What a loop comes to, if the machine that it proceeds to comes to it at once. -/
theorem Proceeds.loop_eq (h : Proceeds r p m journal m' journal')
    (last : m'.loop r p 1 journal' = some observed) {observed' : Observed Notes}
    (looped : m.loop r p fuel journal = some observed') : observed' = observed := by
  obtain ⟨steps, hsteps⟩ := h.loop
  exact loop_unique looped ((hsteps 1).trans last)

/-! ## Where a loop leads -/

theorem Proceeds.trans {m'' : Machine} {journal'' : Journal Notes}
    (h : Proceeds r p m journal m' journal') (h' : Proceeds r p m' journal' m'' journal'') :
    Proceeds r p m journal m'' journal'' := by
  induction h with
  | refl => exact h'
  | step next silent completes _ ih => exact .step next silent completes (ih h')

theorem Proceeds.reachable (h : Proceeds r p m journal m' journal')
    (reachable : Reachable r p origin m) : Reachable r p origin m' := by
  induction h with
  | refl => exact reachable
  | @step m _ i journal _ _ next silent completes _ ih =>
    refine ih ?_
    have hstep := reachable.step journal
    rwa [observedStep_eq_of_silent next silent] at hstep

/-! ## Exits -/

/-- Only an exit ends a program. -/
theorem execute_done (m : Machine) (i : Instruction) :
    (m.execute i).machine.done = m.done ∨ i.Is .exit := by
  have h := executes m i
  generalize m.execute i = e at h ⊢
  cases h with
  | exit is => exact .inr is
  | outputCharacter | outputNumber =>
    rw [Effect.completed_machine, output_eq]
    exact .inl rfl
  | _ => exact .inl rfl

theorem perform_done (m : Machine) (i : Instruction) :
    (m.perform i).machine.done = m.done ∨ i.Is .exit :=
  execute_done (m.record i) i

theorem perform_exit (is : i.Is .exit) :
    (m.perform i).stop = none ∧ (m.perform i).machine.done = true := by
  rw [perform_of_completed (.exit is)]
  exact ⟨rfl, rfl⟩

/-- A machine that has ended since has made an exit last. -/
theorem Proceeds.exists_exit (h : Proceeds r p m journal m' journal') (hm : m.done = false)
    (hm' : m'.done = true) :
    ∃ last before i, Proceeds r p m journal last before ∧ last.next p = .instruction i ∧
      r.beforeStep last (r.snapshot last i) before = (journal', none) ∧ i.Is .exit ∧
      m' = (last.perform i).machine := by
  induction h with
  | refl =>
    rw [hm] at hm'
    cases hm'
  | @step m m' i journal told journal' next silent completes proceeds ih =>
    cases hd : (m.perform i).machine.done with
    | false =>
      obtain ⟨last, before, j, hlast, rest⟩ := ih hd hm'
      exact ⟨last, before, j, .step next silent completes hlast, rest⟩
    | true =>
      have is : i.Is .exit := by
        refine (perform_done m i).resolve_left fun he => ?_
        rw [he, hm] at hd
        cases hd
      -- The machine has halted, so it proceeds no further.
      cases proceeds with
      | refl => exact ⟨m, journal, i, .refl, next, silent, is, rfl⟩
      | step next' => rw [next_of_done hd] at next'; cases next'

end Machine

/-! ## Observers that never interrupt -/

namespace Registry.NeverInterrupts

variable {Notes : Type} {r : Registry Notes}

theorem builtin (debug debugHeap : Bool) :
    (Registry.builtin debug debugHeap : Registry Notes).NeverInterrupts where
  hooks _ member := absurd member List.not_mem_nil
  rules rule member := by
    unfold Registry.builtin at member
    split at member
    · obtain rfl := List.mem_singleton.mp member
      exact fun _ _ _ _ => nofun
    · exact absurd member List.not_mem_nil

theorem hook_callAll (event : Event) {hooks : List (Hook Notes)}
    (never : ∀ hook ∈ hooks, ∀ notes notice,
      (hook.react event notes).2 ≠ some (.interrupt notice)) (notes : Notes) (notice : Notice) :
    (Hook.callAll event hooks notes).2 ≠ some (.interrupt notice) := by
  induction hooks generalizing notes with
  | nil => nofun
  | cons hook hooks ih =>
    obtain ⟨first, rest⟩ := List.forall_mem_cons.mp never
    have answer := first notes notice
    unfold Hook.callAll
    rcases reacts : hook.react event notes with ⟨told, _ | raised⟩
    · exact ih rest told
    · rwa [reacts] at answer

theorem rule_callAll {m : Machine} {snapshot : Snapshot} {rules : List (StepRule Notes)}
    (never : ∀ rule ∈ rules, ∀ journal notice,
      (rule.call m snapshot journal).2 ≠ some (.interrupt notice)) (journal : Journal Notes)
    (notice : Notice) :
    (StepRule.callAll m snapshot rules journal).2 ≠ some (.interrupt notice) := by
  induction rules generalizing journal with
  | nil => nofun
  | cons rule rules ih =>
    obtain ⟨first, rest⟩ := List.forall_mem_cons.mp never
    have answer := first journal notice
    unfold StepRule.callAll
    split
    · rcases calls : rule.call m snapshot journal with ⟨told, _ | raised⟩
      · exact ih rest told
      · rwa [calls] at answer
    · exact ih rest journal

/-- What is raised before a step is an error. -/
theorem beforeStep (never : r.NeverInterrupts) {m : Machine} {i : Instruction}
    {journal told : Journal Notes} {raised : Raised}
    (raises : r.beforeStep m (r.snapshot m i) journal = (told, some raised)) :
    ∃ error, m.ruleStop i raised = .fault error := by
  have errors := rule_callAll (fun rule member => never.rules rule member m (r.snapshot m i)) journal
  unfold Registry.beforeStep at raises
  rw [raises] at errors
  cases raised with
  | interrupt notice => exact absurd rfl (errors notice)
  | device | runtime | foreign => exact ⟨_, rfl⟩

/-- What is raised on an event is an error. -/
theorem announce (never : r.NeverInterrupts) {m : Machine} {event : String}
    {error : Option RuntimeError} {journal told : Journal Notes} {stop : Stop}
    (raises : m.announce r event error journal = (told, some stop)) :
    ∃ failure, stop = .fault failure := by
  have hooks : ∀ hook ∈ r.hooksOn event, hook ∈ r.hooks := fun _ => List.mem_of_mem_filter
  have errors := hook_callAll ⟨event, some m, error⟩
    (fun hook member => never.hooks hook (hooks hook member) _) journal.notes
  obtain ⟨-, answer⟩ := Prod.mk.inj raises
  obtain ⟨raised, calls, rfl⟩ := Option.map_eq_some_iff.mp answer
  cases raised with
  | interrupt notice => exact absurd calls (errors notice)
  | device | runtime | foreign => exact ⟨_, rfl⟩

end Registry.NeverInterrupts

/-! ## Runs -/

namespace Machine

variable {Notes : Type} {r : Registry Notes} {p : Program} {m m' origin : Machine} {i : Instruction}
  {journal told : Journal Notes} {observed : Observed Notes} {fuel : Nat}

theorem conclude_stop_eq_none_iff :
    (conclude r observed).stop = none ↔ observed.stop = none ∧ observed.machine.done = true ∧
      (announce r observed.machine Event.endName none observed.journal).2 = none := by
  unfold conclude
  cases hs : observed.stop with
  | some stop => cases stop <;> simp [report, hs]
  | none =>
    cases hd : observed.machine.done with
    | false => simp [hd, report]
    | true => simp [hd]

/-- A runtime error that is reported stays one, unless an observer interrupts. -/
theorem report_stop (never : r.NeverInterrupts) (m : Machine) (journal : Journal Notes)
    (error : RuntimeError) : ∃ error', (report r m journal error).stop = some (.fault error') := by
  unfold report
  rcases answers : announce r m Event.errorName (some (m.placed error)) journal with
    ⟨told, _ | stop⟩
  · exact ⟨_, rfl⟩
  · obtain ⟨failure, rfl⟩ := never.announce answers
    exact ⟨_, rfl⟩

/-- Concluding leaves a stop that is no fault, and makes none, unless an observer interrupts. -/
theorem conclude_stop_cases (never : r.NeverInterrupts) (observed : Observed Notes) :
    (conclude r observed).stop = none ∨
      (∃ error, (conclude r observed).stop = some (.fault error)) ∨
        conclude r observed = observed ∧ ∃ stop, observed.stop = some stop := by
  unfold conclude
  cases hs : observed.stop with
  | some stop =>
    cases stop with
    | fault error => exact .inr (.inl (report_stop never ..))
    | _ => exact .inr (.inr ⟨rfl, _, rfl⟩)
  | none =>
    cases hd : observed.machine.done with
    | false =>
      simp only [hd, Bool.false_eq_true, ↓reduceIte]
      exact .inr (.inl (report_stop never ..))
    | true =>
      simp only [hd, ↓reduceIte]
      rcases answers : announce r observed.machine Event.endName none observed.journal with
        ⟨told, _ | stop⟩
      · exact .inl rfl
      · obtain ⟨failure, rfl⟩ := never.announce answers
        exact .inr (.inl ⟨failure, rfl⟩)

theorem conclude_of_not_fault {stop : Stop} (hs : observed.stop = some stop)
    (h : ∀ error, stop ≠ .fault error) : conclude r observed = observed := by
  unfold conclude
  rw [hs]
  cases stop with
  | fault error => exact absurd rfl (h error)
  | _ => rfl

theorem run_of_raised {stop : Stop}
    (raised : announce r m Event.startName none journal = (told, some stop)) :
    m.run fuel r p journal = some ⟨m, told, some stop⟩ := by
  unfold run
  rw [raised]

theorem run_of_announced (announced : announce r m Event.startName none journal = (told, none)) :
    m.run fuel r p journal = (m.loop r p fuel told).map (conclude r) := by
  unfold run
  rw [announced]

/-- A run that comes to an exit without an end that fails, and only such a run, is successful. -/
theorem run_stop_eq_none_iff (start : origin.done = false)
    (ran : origin.run fuel r p journal = some observed) :
    observed.stop = none ↔ EndsByExit r p origin journal := by
  constructor
  · intro hs
    rcases announced : announce r origin Event.startName none journal with ⟨started, _ | error⟩
    case some =>
      rw [run_of_raised announced] at ran
      cases ran
      cases hs
    rw [run_of_announced announced] at ran
    obtain ⟨last, looped, rfl⟩ := Option.map_eq_some_iff.mp ran
    obtain ⟨hstop, hdone, hend⟩ := conclude_stop_eq_none_iff.mp hs
    obtain ⟨m, before, proceeds, ⟨-, rfl⟩ | ⟨-, -, hne⟩⟩ := exists_proceeds_of_loop looped
    · obtain ⟨last, before', i, hlast, next, silent, is, rfl⟩ := proceeds.exists_exit start hdone
      exact ⟨last, i, before, ⟨announced, hlast, next, silent⟩, is, hend⟩
    · exact absurd hstop hne
  · rintro ⟨m, i, told, ⟨announced, proceeds, next, silent⟩, is, hend⟩
    obtain ⟨completes, hdone⟩ := perform_exit (m := m) is
    have hall : Proceeds r p origin _ (m.perform i).machine told :=
      proceeds.trans (.step next silent completes .refl)
    rw [run_of_announced announced] at ran
    obtain ⟨last, looped, rfl⟩ := Option.map_eq_some_iff.mp ran
    rw [hall.loop_eq (loop_of_halted (next_of_done hdone)) looped]
    exact conclude_stop_eq_none_iff.mpr ⟨rfl, hdone, hend⟩

/-- Such a run does not go on for ever. -/
theorem EndsByExit.exists_run (h : EndsByExit r p origin journal) :
    ∃ fuel observed, origin.run fuel r p journal = some observed := by
  obtain ⟨m, i, told, ⟨announced, proceeds, next, silent⟩, is, -⟩ := h
  obtain ⟨completes, hdone⟩ := perform_exit (m := m) is
  obtain ⟨fuel, looped⟩ := (proceeds.trans (.step next silent completes .refl)).exists_loop
    (loop_of_halted (next_of_done hdone))
  exact ⟨fuel, _, (run_of_announced announced).trans (congrArg (Option.map _) looped)⟩

/-- A run that comes to an overlong line ends there, and by no runtime error. -/
theorem ComesTo.run_of_overlong {digits : Nat} (h : ComesTo r p origin journal m i told)
    (overlong : m.ReadsOverlong i digits) (ran : origin.run fuel r p journal = some observed) :
    observed.stop = some (.digitLimit digits) := by
  obtain @⟨started, before, announced, proceeds, next, silent⟩ := h
  have hstop : (m.observedStep r p before).stop = some (.digitLimit digits) := by
    rw [observedStep_eq_of_silent next silent, ← step_eq_perform next]
    exact step_digitLimit next overlong
  have hlast : m.loop r p 1 before = some (m.observedStep r p before) :=
    loop_of_stop (by rw [next]; nofun) hstop
  rw [run_of_announced announced] at ran
  obtain ⟨last, looped, rfl⟩ := Option.map_eq_some_iff.mp ran
  rw [proceeds.loop_eq hlast looped, conclude_of_not_fault hstop fun _ h => by cases h]
  exact hstop

/-- A run of a well formed program on a stream of text, under observers that never interrupt, is
successful or ends by a runtime error or a division by zero, exactly unless it comes to a line that
is a number of more digits than are converted. -/
theorem run_in_taxonomy_iff {heapSize : Nat} {silent : Bool} {console : Console}
    (hw : p.WellFormed) (device : ∀ raised, ¬console.Raises raised) (never : r.NeverInterrupts)
    (ran : (start heapSize silent console).run fuel r p journal = some observed) :
    (observed.stop = none ∨ (∃ error, observed.stop = some (.fault error)) ∨
        ∃ i, observed.stop = some (.divisionByZero i)) ↔
      ¬ComesToOverlong r p (start heapSize silent console) journal := by
  constructor
  · rintro h ⟨m, i, told, digits, comes, overlong⟩
    rw [comes.run_of_overlong overlong ran] at h
    rcases h with h | ⟨error, h⟩ | ⟨j, h⟩ <;> cases h
  · intro hno
    rcases announced : announce r (start heapSize silent console) Event.startName none journal
      with ⟨started, _ | stop⟩
    case some =>
      obtain ⟨error, rfl⟩ := never.announce announced
      rw [run_of_raised announced] at ran
      cases ran
      exact .inr (.inl ⟨error, rfl⟩)
    rw [run_of_announced announced] at ran
    obtain ⟨last, looped, rfl⟩ := Option.map_eq_some_iff.mp ran
    rcases conclude_stop_cases never last with h | h | ⟨heq, stop, hstop⟩
    · exact .inl h
    · exact .inr (.inl h)
    rw [heq]
    obtain ⟨m, before, proceeds, ⟨-, rfl⟩ | ⟨hnext, rfl, -⟩⟩ := exists_proceeds_of_loop looped
    · cases hstop
    have reachable := proceeds.reachable .origin
    obtain ⟨-, i, -, next⟩ := (reachable.inBounds hw).next hnext
    rcases hr : r.beforeStep m (r.snapshot m i) before with ⟨told, _ | raised⟩
    · rw [observedStep_eq_of_silent next hr] at hstop ⊢
      rw [← step_eq_perform next] at hstop ⊢
      obtain ⟨j, hj, stops⟩ := step_stop (by rw [next]; nofun) hstop
      rw [hstop]
      rw [next] at hj
      cases hj
      cases stops with
      | fault error => exact .inr (.inl ⟨error, rfl⟩)
      | divisionByZero divides => exact .inr (.inr ⟨i, rfl⟩)
      | @digitLimit digits overlong =>
        exact absurd ⟨m, i, told, digits, ⟨announced, proceeds, next, hr⟩, overlong⟩ hno
      | foreign raises | interrupt raises => exact absurd (reachable.raises raises) (device _)
    · obtain ⟨error, stops⟩ := never.beforeStep hr
      rw [observedStep_eq_of_raised next hr, stops]
      exact .inr (.inl ⟨error, rfl⟩)

end Machine

end Whitespace
