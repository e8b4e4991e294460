import Mathlib.Data.List.Forall2
import Whitespace.Machine.Run

/-!
# Runs in lockstep

Two runs of one program from one machine that differ in their observers make the same steps and end
in the same way, as long as the observers of one raise what those of the other do. What the
observers write down may differ, if a relation between the journals is kept by every call.

Results:
1. `loop_alike`: the steps, if the rules agree.
2. `run_alike`: the whole run, if the hooks agree too.
-/

namespace Whitespace

variable {Notes Notes' : Type}

/-- What two calls of observers lead to: related journals, and what was raised is the same. -/
inductive Answers {α : Type} (R : Journal Notes → Journal Notes' → Prop) :
    Journal Notes × α → Journal Notes' × α → Prop
  | intro {journal : Journal Notes} {journal' : Journal Notes'} {raised : α}
      (journals : R journal journal') : Answers R (journal, raised) (journal', raised)

theorem Answers.imp {α : Type} {R S : Journal Notes → Journal Notes' → Prop}
    {answer : Journal Notes × α} {answer' : Journal Notes' × α} (h : Answers R answer answer')
    (weaken : ∀ journal journal', R journal journal' → S journal journal') :
    Answers S answer answer' := by
  obtain ⟨journals⟩ := h
  exact .intro (weaken _ _ journals)

/-- Machines that are the same and have stopped alike, with related journals. -/
inductive Observed.Alike (R : Journal Notes → Journal Notes' → Prop) :
    Observed Notes → Observed Notes' → Prop
  | intro {m : Machine} {journal : Journal Notes} {journal' : Journal Notes'} {stop : Option Stop}
      (journals : R journal journal') : Alike R ⟨m, journal, stop⟩ ⟨m, journal', stop⟩

/-- Rules that are called on one step or not, and lead to the same before it. -/
def StepRule.Alike (R : Journal Notes → Journal Notes' → Prop) (m : Machine)
    (snapshot snapshot' : Snapshot) (rule : StepRule Notes) (rule' : StepRule Notes') : Prop :=
  rule.applies snapshot.step = rule'.applies snapshot'.step ∧
    ∀ journal journal', R journal journal' →
      Answers R (rule.call m snapshot journal) (rule'.call m snapshot' journal')

namespace Registry

variable (R : Journal Notes → Journal Notes' → Prop) (r : Registry Notes) (r' : Registry Notes')

/-- The rules of both keep the relation and raise the same. -/
def RulesAgree : Prop :=
  ∀ (m : Machine) (i : Instruction) (journal : Journal Notes) (journal' : Journal Notes'),
    R journal journal' →
      Answers R (r.beforeStep m (r.snapshot m i) journal)
        (r'.beforeStep m (r'.snapshot m i) journal')

/-- The hooks of both keep the relation and raise the same. -/
def HooksAgree : Prop :=
  ∀ (event : Event) (journal : Journal Notes) (journal' : Journal Notes'),
    R journal journal' → Answers R (r.emit event journal) (r'.emit event journal')

/-- Rules are shown the same if none or some ask for the heap in both. -/
theorem snapshot_congr {r : Registry Notes} {r' : Registry Notes'}
    (wants : r.wantsHeap = r'.wantsHeap) (m : Machine) (i : Instruction) :
    r.snapshot m i = r'.snapshot m i := by
  unfold snapshot
  rw [wants]

end Registry

theorem StepRule.callAll_alike {R : Journal Notes → Journal Notes' → Prop} {m : Machine}
    {snapshot snapshot' : Snapshot} {rules : List (StepRule Notes)}
    {rules' : List (StepRule Notes')} {journal : Journal Notes} {journal' : Journal Notes'}
    (alike : List.Forall₂ (StepRule.Alike R m snapshot snapshot') rules rules')
    (h : R journal journal') :
    Answers R (callAll m snapshot rules journal) (callAll m snapshot' rules' journal') := by
  induction alike generalizing journal journal' with
  | nil => exact .intro h
  | @cons rule rule' rules rules' hrule _ ih =>
    obtain ⟨applies, answers⟩ := hrule
    replace answers := answers journal journal' h
    simp only [callAll, ← applies]
    generalize rule.call m snapshot journal = answer at answers ⊢
    generalize rule'.call m snapshot' journal' = answer' at answers ⊢
    obtain @⟨told, told', raising, journals⟩ := answers
    split
    · cases raising with
      | none => exact ih journals
      | some raised => exact .intro journals
    · exact ih h

namespace Machine

variable {R : Journal Notes → Journal Notes' → Prop} {r : Registry Notes} {r' : Registry Notes'}
  {p : Program} {journal : Journal Notes} {journal' : Journal Notes'}

theorem observedStep_alike (rules : r.RulesAgree R r') (m : Machine) (h : R journal journal') :
    (m.observedStep r p journal).Alike R (m.observedStep r' p journal') := by
  unfold observedStep
  cases m.next p with
  | halted => exact .intro h
  | outside => exact .intro h
  | instruction i =>
    have answers := rules m i journal journal' h
    simp only
    generalize r.beforeStep m (r.snapshot m i) journal = answer at answers ⊢
    generalize r'.beforeStep m (r'.snapshot m i) journal' = answer' at answers ⊢
    obtain @⟨told, told', raising, journals⟩ := answers
    cases raising with
    | none => exact .intro journals
    | some raised => exact .intro journals

/-- Loops whose rules agree make the same steps. -/
theorem loop_alike (rules : r.RulesAgree R r') (fuel : Nat) (m : Machine) (h : R journal journal') :
    Option.Rel (Observed.Alike R) (m.loop r p fuel journal) (m.loop r' p fuel journal') := by
  induction fuel generalizing m journal journal' with
  | zero => exact .none
  | succ fuel ih =>
    have hstep := observedStep_alike (p := p) rules m h
    simp only [loop]
    split
    · exact .some (.intro h)
    · generalize m.observedStep r p journal = observed at hstep ⊢
      generalize m.observedStep r' p journal' = observed' at hstep ⊢
      obtain @⟨m', told, told', stop, journals⟩ := hstep
      cases stop with
      | some stop => exact .some (.intro journals)
      | none => exact ih m' journals

theorem announce_alike (hooks : r.HooksAgree R r') (m : Machine) (event : String)
    (error : Option RuntimeError) (h : R journal journal') :
    Answers R (announce r m event error journal) (announce r' m event error journal') := by
  have answers := hooks ⟨event, some m, error⟩ journal journal' h
  unfold announce
  generalize r.emit ⟨event, some m, error⟩ journal = answer at answers ⊢
  generalize r'.emit ⟨event, some m, error⟩ journal' = answer' at answers ⊢
  obtain @⟨told, told', raising, journals⟩ := answers
  exact .intro journals

theorem report_alike (hooks : r.HooksAgree R r') (m : Machine) (error : RuntimeError)
    (h : R journal journal') : (report r m journal error).Alike R (report r' m journal' error) := by
  have answers := announce_alike hooks m Event.errorName (some (m.placed error)) h
  unfold report
  generalize announce r m Event.errorName (some (m.placed error)) journal = answer at answers ⊢
  generalize announce r' m Event.errorName (some (m.placed error)) journal' = answer' at answers ⊢
  obtain @⟨told, told', raising, journals⟩ := answers
  exact .intro journals

theorem conclude_alike (hooks : r.HooksAgree R r') {observed : Observed Notes}
    {observed' : Observed Notes'} (h : observed.Alike R observed') :
    (conclude r observed).Alike R (conclude r' observed') := by
  obtain @⟨m, told, told', stop, journals⟩ := h
  unfold conclude
  rcases stop with _ | stop
  · simp only
    split
    · have answers := announce_alike hooks m Event.endName none journals
      generalize announce r m Event.endName none told = answer at answers ⊢
      generalize announce r' m Event.endName none told' = answer' at answers ⊢
      obtain @⟨ended, ended', raising, journals⟩ := answers
      exact .intro journals
    · exact report_alike hooks m _ journals
  · cases stop with
    | fault error => exact report_alike hooks m error journals
    | _ => exact .intro journals

/-- Runs whose observers agree come to the same end. -/
theorem run_alike (rules : r.RulesAgree R r') (hooks : r.HooksAgree R r') (fuel : Nat) (m : Machine)
    (h : R journal journal') :
    Option.Rel (Observed.Alike R) (m.run fuel r p journal) (m.run fuel r' p journal') := by
  have answers := announce_alike hooks m Event.startName none h
  unfold run
  generalize announce r m Event.startName none journal = answer at answers ⊢
  generalize announce r' m Event.startName none journal' = answer' at answers ⊢
  obtain @⟨started, started', raising, journals⟩ := answers
  cases raising with
  | some error => exact .some (.intro journals)
  | none =>
    have hloop := loop_alike (p := p) rules fuel m journals
    simp only
    generalize m.loop r p fuel started = looped at hloop ⊢
    generalize m.loop r' p fuel started' = looped' at hloop ⊢
    cases hloop with
    | none => exact .none
    | some alike => exact .some (conclude_alike hooks alike)

end Machine

end Whitespace
