import Whitespace.Machine.Run

/-!
# Histories

A machine is stepped, run and reset in any order, whether or not what was done before completed. All
that changes it is the execution of instructions, so what holds at the start, is kept by executing
an instruction, and comes back with a reset, holds along every history.

Results:
1. `Machine.observedStep_eq_of_raised`, `Machine.observedStep_eq_of_silent`: what a step comes to
   where a rule raises, and where none does.
2. `Machine.run_keeps`, `Machine.run_preserves`: a run keeps what steps and announcements keep, and
   what executing an instruction keeps.
3. `Machine.Reachable.invariant`: what holds along every history.
-/

namespace Whitespace.Machine

variable {Notes : Type}

/-- `Reachable r p origin m`: steps, runs and resets lead from `origin` to `m`. A step or a run need
not complete, and each may find another journal. -/
inductive Reachable (r : Registry Notes) (p : Program) (origin : Machine) : Machine → Prop
  | origin : Reachable r p origin origin
  | step {m : Machine} (reached : Reachable r p origin m) (journal : Journal Notes) :
      Reachable r p origin (m.observedStep r p journal).machine
  | run {m : Machine} (reached : Reachable r p origin m) {fuel : Nat} {journal : Journal Notes}
      {observed : Observed Notes} (ran : m.run fuel r p journal = some observed) :
      Reachable r p origin observed.machine
  | reset {m : Machine} (reached : Reachable r p origin m) : Reachable r p origin m.reset

/-- The effects of the first steps from a machine, whether or not they complete. -/
def trace (step : Machine → Effect) : Nat → Machine → List Effect
  | 0, _ => []
  | n + 1, m => step m :: trace step n (step m).machine

section

variable {r : Registry Notes} {p : Program} {P : Machine → Prop}

theorem next_eq_instruction {m : Machine} {i : Instruction} (h : m.next p = .instruction i) :
    m.done = false ∧ m.pointer < p.size ∧ p.fetch? m.pointer = some i := by
  unfold next at h
  split at h
  · cases h
  · next hc =>
    rw [not_or, Int.not_le, Bool.not_eq_true] at hc
    split at h
    · next hf =>
      cases h
      exact ⟨hc.1, hc.2, hf⟩
    · cases h

theorem observedStep_eq_of_halted {m : Machine} {journal : Journal Notes}
    (next : m.next p = .halted) : m.observedStep r p journal = ⟨m, journal, none⟩ := by
  unfold observedStep
  simp only [next]

theorem observedStep_eq_of_outside {m : Machine} {journal : Journal Notes}
    (next : m.next p = .outside) :
    m.observedStep r p journal = ⟨m, journal, some .outsideProgram⟩ := by
  unfold observedStep
  simp only [next]

theorem observedStep_eq_of_raised {m : Machine} {i : Instruction} {journal told : Journal Notes}
    {raised : Raised} (next : m.next p = .instruction i)
    (raises : r.beforeStep m (r.snapshot m i) journal = (told, some raised)) :
    m.observedStep r p journal = ⟨m, told, some (m.ruleStop i raised)⟩ := by
  unfold observedStep
  simp only [next, raises]

theorem observedStep_eq_of_silent {m : Machine} {i : Instruction} {journal told : Journal Notes}
    (next : m.next p = .instruction i)
    (silent : r.beforeStep m (r.snapshot m i) journal = (told, none)) :
    m.observedStep r p journal = ⟨(m.perform i).machine, told, (m.perform i).stop⟩ := by
  unfold observedStep
  simp only [next, silent]

theorem observedStep_of_raised {m : Machine} {i : Instruction} {journal : Journal Notes}
    {raised : Raised} (next : m.next p = .instruction i)
    (raises : (r.beforeStep m (r.snapshot m i) journal).2 = some raised) :
    (m.observedStep r p journal).machine = m ∧
      (m.observedStep r p journal).stop = some (m.ruleStop i raised) := by
  rw [observedStep_eq_of_raised next (Prod.ext rfl raises)]
  exact ⟨rfl, rfl⟩

theorem observedStep_of_silent {m : Machine} {i : Instruction} {journal : Journal Notes}
    (next : m.next p = .instruction i)
    (silent : (r.beforeStep m (r.snapshot m i) journal).2 = none) :
    (m.observedStep r p journal).machine = (m.perform i).machine ∧
      (m.observedStep r p journal).stop = (m.perform i).stop := by
  rw [observedStep_eq_of_silent next (Prod.ext rfl silent)]
  exact ⟨rfl, rfl⟩

/-- An observed step executes the next instruction or leaves the machine alone. -/
theorem observedStep_machine (m : Machine) (journal : Journal Notes) :
    (m.observedStep r p journal).machine = m ∨
      ∃ i, m.next p = .instruction i ∧
        (m.observedStep r p journal).machine = (m.perform i).machine := by
  cases hn : m.next p with
  | halted | outside =>
    unfold observedStep
    rw [hn]
    exact .inl rfl
  | instruction i =>
    cases hr : (r.beforeStep m (r.snapshot m i) journal).2 with
    | none => exact .inr ⟨i, rfl, (observedStep_of_silent hn hr).1⟩
    | some raised => exact .inl (observedStep_of_raised hn hr).1

theorem observedStep_preserves
    (perform : ∀ m i, P m → m.next p = .instruction i → P (m.perform i).machine)
    {m : Machine} (hm : P m) (journal : Journal Notes) :
    P (m.observedStep r p journal).machine := by
  rcases observedStep_machine (r := r) (p := p) m journal with h | ⟨i, hn, h⟩
  · rw [h]
    exact hm
  · rw [h]
    exact perform m i hm hn

theorem conclude_machine (observed : Observed Notes) :
    (conclude r observed).machine = observed.machine := by
  unfold conclude
  cases observed.stop with
  | none =>
    cases hd : observed.machine.done with
    | false => simp only [hd, Bool.false_eq_true, ↓reduceIte, report]
    | true => simp only [hd, ↓reduceIte]
  | some stop => cases stop <;> rfl

/-- What holds of machine and journal along a loop, if steps keep it. -/
theorem loop_keeps {K : Machine → Journal Notes → Prop}
    (step : ∀ m journal, K m journal →
      K (m.observedStep r p journal).machine (m.observedStep r p journal).journal)
    {fuel : Nat} {m : Machine} {journal : Journal Notes} {observed : Observed Notes}
    (h : K m journal) (looped : m.loop r p fuel journal = some observed) :
    K observed.machine observed.journal := by
  induction fuel generalizing m journal with
  | zero => cases looped
  | succ fuel ih =>
    have stepped := step m journal h
    unfold loop at looped
    split at looped
    · cases looped
      exact h
    · simp only at looped
      split at looped
      · -- A step that did not complete may have changed the machine all the same.
        cases looped
        exact stepped
      · exact ih stepped looped

/-- What holds of machine and journal along a run, if steps and announcements keep it. -/
theorem run_keeps {K : Machine → Journal Notes → Prop}
    (step : ∀ m journal, K m journal →
      K (m.observedStep r p journal).machine (m.observedStep r p journal).journal)
    (announced : ∀ m journal event error, K m journal → K m (announce r m event error journal).1)
    {fuel : Nat} {m : Machine} {journal : Journal Notes} {observed : Observed Notes}
    (h : K m journal) (ran : m.run fuel r p journal = some observed) :
    K observed.machine observed.journal := by
  have started := announced m journal Event.startName none h
  unfold run at ran
  split at ran
  · next raised =>
    rw [raised] at started
    cases ran
    exact started
  · next silent =>
    rw [silent] at started
    obtain ⟨last, looped, rfl⟩ := Option.map_eq_some_iff.mp ran
    have ended := loop_keeps step started looped
    unfold conclude
    split
    · exact announced _ _ _ _ ended
    · exact ended
    · simp only
      split
      · exact announced _ _ _ _ ended
      · exact announced _ _ _ _ ended

/-- A run keeps what executing an instruction keeps. -/
theorem run_preserves
    (perform : ∀ m i, P m → m.next p = .instruction i → P (m.perform i).machine)
    {fuel : Nat} {m : Machine} {journal : Journal Notes} {observed : Observed Notes}
    (hm : P m) (h : m.run fuel r p journal = some observed) : P observed.machine :=
  run_keeps (K := fun m _ => P m) (fun _ journal hm => observedStep_preserves perform hm journal)
    (fun _ _ _ _ hm => hm) hm h

/-- What holds at the start, is kept by executing an instruction, and comes back with a reset, holds
along every history. -/
theorem Reachable.invariant {origin m : Machine} (h : Reachable r p origin m) (start : P origin)
    (perform : ∀ m i, P m → m.next p = .instruction i → P (m.perform i).machine)
    (reset : ∀ m, P m → P m.reset) : P m := by
  induction h with
  | origin => exact start
  | step _ journal ih => exact observedStep_preserves perform ih journal
  | run _ ran ih => exact run_preserves perform ih ran
  | reset _ ih => exact reset _ ih

end

end Whitespace.Machine
