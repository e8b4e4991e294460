import Whitespace.Proofs.Machine.Memory
import Whitespace.Proofs.Observer.Registration

/-!
# The schedule of step rules

Before an instruction, the rules are called whose interval divides the number of the step, in the
order of their registration, up to the first that raises. All are shown the machine as it is then.
To tell which rules are called, and what they are shown, the calls are written down; that changes
nothing else about steps and runs.

Results:
1. `StepRule.Fires.callAll`: the rules called before an instruction, and that this is written down.
2. `Machine.Session.watched`, `Machine.Session.unwatched`: watching changes nothing.
3. `Machine.rules_fire_on_schedule`: which rules are called, on what, and what a rule that raises
   prevents.
-/

namespace Whitespace

variable {Notes : Type}

/-! ## Watched rules -/

structure RuleCall (Notes : Type) where
  rule : StepRule Notes
  /-- The machine that the rule is called on. -/
  machine : Machine
  snapshot : Snapshot
  /-- What the rule raises. -/
  raised : Option Raised

structure Watched (Notes : Type) where
  journal : Journal Notes
  calls : List (RuleCall Notes)

def Journal.watched (journal : Journal Notes) (calls : List (RuleCall Notes)) :
    Journal (Watched Notes) :=
  ⟨#[], journal, calls⟩

def Observed.watched (observed : Observed Notes) (calls : List (RuleCall Notes)) :
    Observed (Watched Notes) :=
  ⟨observed.machine, observed.journal.watched calls, observed.stop⟩

/-- The hook, which leaves the calls of step rules as they are. -/
def Hook.watched (hook : Hook Notes) : Hook (Watched Notes) where
  event := hook.event
  priority := hook.priority
  name := hook.name
  owner := hook.owner
  react event watched :=
    let (notes, raised) := hook.react event watched.journal.notes
    (⟨⟨watched.journal.trace, notes⟩, watched.calls⟩, raised)

/-- The rule, whose calls are written down. -/
def StepRule.watched (rule : StepRule Notes) : StepRule (Watched Notes) where
  every := rule.every
  name := rule.name
  owner := rule.owner
  wantsHeap := rule.wantsHeap
  action := .react fun m snapshot watched =>
    let (journal, raised) := rule.call m snapshot watched.journal
    (⟨journal, watched.calls ++ [⟨rule, m, snapshot, raised⟩]⟩, raised)

/-- The observers, with the calls of the step rules written down. -/
def Registry.watched (r : Registry Notes) : Registry (Watched Notes) :=
  ⟨r.hooks.map Hook.watched, r.rules.map StepRule.watched⟩

theorem Hook.callAll_watched (event : Event) (hooks : List (Hook Notes)) (journal : Journal Notes)
    (calls : List (RuleCall Notes)) :
    callAll event (hooks.map watched) ⟨journal, calls⟩ =
      (⟨⟨journal.trace, (callAll event hooks journal.notes).1⟩, calls⟩,
        (callAll event hooks journal.notes).2) := by
  induction hooks generalizing journal with
  | nil => rfl
  | cons hook hooks ih =>
    rcases reacts : hook.react event journal.notes with ⟨told, _ | raised⟩
    · simp only [List.map_cons, callAll, watched, reacts]
      exact ih ⟨journal.trace, told⟩
    · simp only [List.map_cons, callAll, watched, reacts]

/-! ## Rules that fire -/

namespace StepRule

variable {m : Machine} {snapshot : Snapshot} {rule : StepRule Notes} {rules : List (StepRule Notes)}
  {journal journal' : Journal Notes} {called : List (RuleCall Notes)} {raised : Option Raised}

/-- `Fires m snapshot rules journal called journal' raised`: rules are called one after the other,
up to and including the first that raises; `called` are their calls. -/
inductive Fires (m : Machine) (snapshot : Snapshot) :
    List (StepRule Notes) → Journal Notes → List (RuleCall Notes) → Journal Notes →
      Option Raised → Prop
  | done {journal : Journal Notes} : Fires m snapshot [] journal [] journal none
  | raises {rule : StepRule Notes} {rules : List (StepRule Notes)}
      {journal journal' : Journal Notes} {raised : Raised}
      (calls : rule.call m snapshot journal = (journal', some raised)) :
      Fires m snapshot (rule :: rules) journal [⟨rule, m, snapshot, some raised⟩] journal'
        (some raised)
  | passes {rule : StepRule Notes} {rules : List (StepRule Notes)}
      {journal told journal' : Journal Notes} {called : List (RuleCall Notes)}
      {raised : Option Raised} (calls : rule.call m snapshot journal = (told, none))
      (rest : Fires m snapshot rules told called journal' raised) :
      Fires m snapshot (rule :: rules) journal (⟨rule, m, snapshot, none⟩ :: called) journal' raised

theorem exists_fires (m : Machine) (snapshot : Snapshot) (rules : List (StepRule Notes))
    (journal : Journal Notes) :
    ∃ called journal' raised, Fires m snapshot rules journal called journal' raised := by
  induction rules generalizing journal with
  | nil => exact ⟨[], journal, none, .done⟩
  | cons rule rules ih =>
    rcases calls : rule.call m snapshot journal with ⟨told, _ | raised⟩
    · obtain ⟨called, journal', raised, rest⟩ := ih told
      exact ⟨_, journal', raised, .passes calls rest⟩
    · exact ⟨_, told, some raised, .raises calls⟩

theorem call_watched (rule : StepRule Notes) (m : Machine) (snapshot : Snapshot)
    (journal : Journal Notes) (before : List (RuleCall Notes)) :
    rule.watched.call m snapshot (journal.watched before) =
      ((rule.call m snapshot journal).1.watched
        (before ++ [⟨rule, m, snapshot, (rule.call m snapshot journal).2⟩]),
        (rule.call m snapshot journal).2) :=
  rfl

theorem applies_watched (rule : StepRule Notes) (step : Int) :
    rule.watched.applies step = rule.applies step :=
  rfl

/-- Called on a step are the rules that apply to it, up to the first that raises, and the calls that
are written down are theirs. -/
theorem Fires.callAll
    (h : Fires m snapshot (rules.filter (·.applies snapshot.step)) journal called journal' raised) :
    StepRule.callAll m snapshot rules journal = (journal', raised) ∧
      ∀ before, StepRule.callAll m snapshot (rules.map watched) (journal.watched before) =
        (journal'.watched (before ++ called), raised) := by
  induction rules generalizing journal called with
  | nil =>
    cases h
    exact ⟨rfl, fun before => by rw [List.append_nil]; rfl⟩
  | cons rule rules ih =>
    simp only [List.map_cons, StepRule.callAll, applies_watched, call_watched]
    rw [List.filter_cons] at h
    split at h
    · next applies =>
      simp only [applies, ↓reduceIte]
      cases h with
      | raises calls => simp only [calls, implies_true, and_self]
      | passes calls rest =>
        obtain ⟨plain, watched⟩ := ih rest
        simp only [calls, plain, watched, List.append_assoc, List.singleton_append, implies_true,
          and_self]
    · next skipped =>
      simp only [skipped, Bool.false_eq_true, ↓reduceIte]
      exact ih h

/-- If no rule raises, each is called once. -/
theorem Fires.called_eq (h : Fires m snapshot rules journal called journal' raised)
    (silent : raised = none) : called = rules.map fun rule => ⟨rule, m, snapshot, none⟩ := by
  induction h with
  | done => rfl
  | raises => cases silent
  | passes _ _ ih =>
    rw [List.map_cons, ih silent]

/-- A rule that raises is called last, whatever rules are behind it. -/
theorem Fires.exists_raising {cause : Raised}
    (h : Fires m snapshot rules journal called journal' raised) (raises : raised = some cause) :
    ∃ before rule later, rules = before ++ rule :: later ∧
      called = before.map (fun rule => ⟨rule, m, snapshot, none⟩) ++
        [⟨rule, m, snapshot, some cause⟩] := by
  induction h with
  | done => cases raises
  | @raises rule rules =>
    cases raises
    exact ⟨[], rule, rules, rfl, rfl⟩
  | passes _ _ ih =>
    obtain ⟨before, rule, later, rfl, rfl⟩ := ih raises
    exact ⟨_ :: before, rule, later, rfl, rfl⟩

theorem Fires.eq_none_of_silent (h : Fires m snapshot rules journal called journal' raised)
    (silent : ∀ call ∈ called, call.raised = none) : raised = none := by
  cases raised with
  | none => rfl
  | some cause =>
    obtain ⟨before, rule, later, -, rfl⟩ := h.exists_raising rfl
    exact silent _ (List.mem_append_right _ List.mem_cons_self)

end StepRule

/-! ## Rules that are due -/

namespace Registry

variable {r : Registry Notes} {m : Machine} {i : Instruction} {journal journal' : Journal Notes}
  {called : List (RuleCall Notes)} {raised : Option Raised}

/-- The rules that are called on the step of a number. -/
def due (r : Registry Notes) (number : Nat) : List (StepRule Notes) :=
  r.rules.filter fun rule => rule.every ∣ number

/-- The calls of rules before the steps of a course, if no rule raises. -/
def schedule (r : Registry Notes) (made : List Step) : List (RuleCall Notes) :=
  made.zipIdx.flatMap fun (s, number) =>
    (r.due number).map fun rule => ⟨rule, s.before, r.snapshot s.before s.instruction, none⟩

theorem schedule_concat (r : Registry Notes) (made : List Step) (s : Step) :
    r.schedule (made ++ [s]) = r.schedule made ++ (r.due made.length).map fun rule =>
      ⟨rule, s.before, r.snapshot s.before s.instruction, none⟩ := by
  unfold schedule
  rw [List.zipIdx_append, List.flatMap_append, List.zipIdx_singleton, List.flatMap_singleton,
    Nat.zero_add]

theorem due_eq (r : Registry Notes) (m : Machine) (i : Instruction) :
    r.due m.executed = r.rules.filter (·.applies (r.snapshot m i).step) := by
  refine List.filter_congr fun rule _ => ?_
  exact decide_eq_decide.mpr Int.dvd_iff_emod_eq_zero

theorem snapshot_watched (r : Registry Notes) (m : Machine) (i : Instruction) :
    r.watched.snapshot m i = r.snapshot m i := by
  have wants : r.watched.wantsHeap = r.wantsHeap := List.any_map
  exact snapshot_congr wants m i

/-- What is called before an instruction, and that it is written down. -/
theorem beforeStep_of_fires
    (h : StepRule.Fires m (r.snapshot m i) (r.due m.executed) journal called journal' raised)
    (before : List (RuleCall Notes)) :
    r.beforeStep m (r.snapshot m i) journal = (journal', raised) ∧
      r.watched.beforeStep m (r.watched.snapshot m i) (journal.watched before) =
        (journal'.watched (before ++ called), raised) := by
  rw [due_eq r m i] at h
  obtain ⟨plain, watched⟩ := h.callAll
  rw [snapshot_watched]
  exact ⟨plain, watched before⟩

/-- Watching changes no answer of the rules. -/
theorem rulesAgree_watched (r : Registry Notes) :
    r.RulesAgree (fun journal journal' => ∃ calls, journal' = journal.watched calls) r.watched := by
  rintro m i journal _ ⟨calls, rfl⟩
  obtain ⟨called, journal', raised, fires⟩ :=
    StepRule.exists_fires m (r.snapshot m i) (r.due m.executed) journal
  obtain ⟨plain, watched⟩ := beforeStep_of_fires fires calls
  rw [plain, watched]
  exact .intro ⟨_, rfl⟩

/-- Watching changes no answer of the hooks, which leave the calls of rules as they are. -/
theorem hooksAgree_watched (r : Registry Notes) (calls : List (RuleCall Notes)) :
    r.HooksAgree (fun journal journal' => journal' = journal.watched calls) r.watched := by
  rintro event journal _ rfl
  have hooks : r.watched.hooksOn event.name = (r.hooksOn event.name).map Hook.watched := by
    unfold hooksOn watched
    rw [List.filter_map]
    rfl
  have same := Hook.callAll_watched event (r.hooksOn event.name) journal calls
  simp only [emit, hooks, Journal.watched, same]
  exact .intro rfl

end Registry

/-! ## What the rules are shown -/

/-- `snapshot.Shows r number s`: what the rules of `r` are shown before the step `s`, which has this
number. All are shown the cells of the heap if one asks for them, and else none is. -/
structure Snapshot.Shows (snapshot : Snapshot) (r : Registry Notes) (number : Nat) (s : Step) :
    Prop where
  step : snapshot.step = number
  pointer : snapshot.pointer = s.before.pointer
  instruction : snapshot.instruction = s.instruction
  stack : snapshot.stack = s.before.stack
  calls : snapshot.calls = s.before.calls
  unasked : (∀ rule ∈ r.rules, rule.wantsHeap = false) → snapshot.heap = none
  asked : (∃ rule ∈ r.rules, rule.wantsHeap = true) →
    ∃ cells, snapshot.heap = some cells ∧ cells.Pairwise (fun a b => a.1 < b.1) ∧
      ∀ address value, (address, value) ∈ cells ↔
        ∃ cell, s.before.heap.address? address = some cell ∧ s.before.heap.read cell = value ∧
          value ≠ 0

theorem Registry.snapshot_shows (r : Registry Notes) (s : Step)
    (confined : s.before.heap.IsConfined) :
    (r.snapshot s.before s.instruction).Shows r s.before.executed s := by
  refine ⟨rfl, rfl, rfl, rfl, rfl, fun unasked => ?_, fun asked => ?_⟩
  · have wants : r.wantsHeap = false := by
      refine List.any_eq_false.mpr fun rule member => ?_
      rw [unasked rule member]
      nofun
    simp only [snapshot, wants, Bool.false_eq_true, ↓reduceIte]
  · have wants : r.wantsHeap = true := List.any_eq_true.mpr asked
    refine ⟨_, if_pos wants, ?_, fun address value => ?_⟩
    · refine List.pairwise_map.mpr (s.before.heap.nonzero_ascending.imp ?_)
      exact Int.ofNat_lt.mpr
    · rw [List.mem_map]
      constructor
      · rintro ⟨⟨cell, value⟩, listed, same⟩
        cases same
        obtain ⟨reads, nonzero⟩ := Heap.mem_nonzero_iff.mp listed
        refine ⟨cell, if_pos ⟨Int.natCast_nonneg cell, Int.ofNat_lt.mpr ?_⟩, reads, nonzero⟩
        by_contra past
        exact nonzero (reads.symm.trans (confined cell (Nat.le_of_not_lt past)))
      · rintro ⟨cell, inside, reads, nonzero⟩
        refine ⟨(cell, value), Heap.mem_nonzero_iff.mpr ⟨reads, nonzero⟩, ?_⟩
        rw [(Heap.address?_eq_some inside).1]

/-! ## Sessions -/

namespace Machine

variable {r : Registry Notes} {p : Program} {origin m : Machine} {i : Instruction}
  {journal told : Journal Notes} {made : List Step}

/-- `Session r p origin journal m told`: under the observers of `r`, steps, runs and announcements
lead from `origin` to `m`, and from `journal` to `told`. A step or a run need not complete. A run
that is going on has been announced, and has made some steps. -/
inductive Session (r : Registry Notes) (p : Program) (origin : Machine) (journal : Journal Notes) :
    Machine → Journal Notes → Prop
  | start : Session r p origin journal origin journal
  | step {m : Machine} {told : Journal Notes} (session : Session r p origin journal m told) :
      Session r p origin journal (m.observedStep r p told).machine
        (m.observedStep r p told).journal
  | announced {m : Machine} {told : Journal Notes} (session : Session r p origin journal m told)
      (event : String) (error : Option RuntimeError) :
      Session r p origin journal m (m.announce r event error told).1
  | run {m : Machine} {told : Journal Notes} (session : Session r p origin journal m told)
      {fuel : Nat} {observed : Observed Notes} (ran : m.run fuel r p told = some observed) :
      Session r p origin journal observed.machine observed.journal

/-- Watching changes nothing about a step. Unless a rule raises, those that are due are called
before an instruction, each once; none is called where there is no instruction. -/
theorem observedStep_watched (r : Registry Notes) (p : Program) (m : Machine)
    (told : Journal Notes) (calls : List (RuleCall Notes)) :
    ∃ called, m.observedStep r.watched p (told.watched calls) =
        (m.observedStep r p told).watched (calls ++ called) ∧
      ((∀ call ∈ called, call.raised = none) →
        (m.observedStep r p told).machine = m ∧ called = [] ∨
        ∃ i, m.next p = .instruction i ∧
          (m.observedStep r p told).machine = (m.perform i).machine ∧
          called = (r.due m.executed).map fun rule => ⟨rule, m, r.snapshot m i, none⟩) := by
  have none_called : told.watched calls = told.watched (calls ++ []) := by rw [List.append_nil]
  cases next : m.next p with
  | halted =>
    rw [observedStep_eq_of_halted next, observedStep_eq_of_halted next, none_called]
    exact ⟨[], rfl, fun _ => .inl ⟨rfl, rfl⟩⟩
  | outside =>
    rw [observedStep_eq_of_outside next, observedStep_eq_of_outside next, none_called]
    exact ⟨[], rfl, fun _ => .inl ⟨rfl, rfl⟩⟩
  | instruction i =>
    obtain ⟨called, told', raised, fires⟩ :=
      StepRule.exists_fires m (r.snapshot m i) (r.due m.executed) told
    obtain ⟨plain, watched⟩ := Registry.beforeStep_of_fires fires calls
    refine ⟨called, ?_, fun silent => .inr ⟨i, rfl, ?_, ?_⟩⟩
    · cases raised with
      | none =>
        rw [observedStep_eq_of_silent next plain, observedStep_eq_of_silent next watched]
        rfl
      | some cause =>
        rw [observedStep_eq_of_raised next plain, observedStep_eq_of_raised next watched]
        rfl
    · rw [fires.eq_none_of_silent silent] at plain
      rw [observedStep_eq_of_silent next plain]
    · exact fires.called_eq (fires.eq_none_of_silent silent)

theorem announce_watched (r : Registry Notes) (m : Machine) (event : String)
    (error : Option RuntimeError) (told : Journal Notes) (calls : List (RuleCall Notes)) :
    announce r.watched m event error (told.watched calls) =
      ((announce r m event error told).1.watched calls, (announce r m event error told).2) := by
  have answers : Answers _ (announce r m event error told) _ :=
    announce_alike (r.hooksAgree_watched calls) m event error rfl
  generalize announce r m event error told = answer at answers ⊢
  generalize announce r.watched m event error (told.watched calls) = answer' at answers ⊢
  obtain ⟨rfl⟩ := answers
  rfl

/-- Watching changes nothing about a run. -/
theorem run_watched (r : Registry Notes) (p : Program) (m : Machine) (fuel : Nat)
    (told : Journal Notes) (calls : List (RuleCall Notes)) :
    ∃ calls', m.run fuel r.watched p (told.watched calls) =
      (m.run fuel r p told).map (·.watched calls') := by
  have hooks : r.HooksAgree (fun journal journal' => ∃ calls, journal' = journal.watched calls)
      r.watched := by
    rintro event journal _ ⟨calls, rfl⟩
    exact (r.hooksAgree_watched calls event journal _ rfl).imp fun _ _ same => ⟨calls, same⟩
  have alike : Option.Rel _ (m.run fuel r p told) (m.run fuel r.watched p (told.watched calls)) :=
    run_alike r.rulesAgree_watched hooks fuel m ⟨calls, rfl⟩
  generalize m.run fuel r p told = ran at alike ⊢
  generalize m.run fuel r.watched p (told.watched calls) = ran' at alike ⊢
  cases alike with
  | none => exact ⟨[], rfl⟩
  | some alike =>
    obtain ⟨calls, rfl⟩ := alike
    exact ⟨calls, rfl⟩

/-- Whatever is done, the calls of rules can be written down. -/
theorem Session.watched (h : Session r p origin journal m told) :
    ∃ calls, Session r.watched p origin (journal.watched []) m (told.watched calls) := by
  induction h with
  | start => exact ⟨[], .start⟩
  | @step m told _ ih =>
    obtain ⟨calls, session⟩ := ih
    obtain ⟨called, same, -⟩ := observedStep_watched r p m told calls
    have stepped := session.step
    rw [same] at stepped
    exact ⟨_, stepped⟩
  | @announced m told _ event error ih =>
    obtain ⟨calls, session⟩ := ih
    have announced := session.announced event error
    rw [announce_watched] at announced
    exact ⟨calls, announced⟩
  | @run m told _ fuel observed ran ih =>
    obtain ⟨calls, session⟩ := ih
    obtain ⟨calls', same⟩ := run_watched r p m fuel told calls
    rw [ran] at same
    exact ⟨calls', session.run same⟩

/-- Where the calls of rules are written down, the same is done as where they are not. -/
theorem Session.unwatched {told' : Journal (Watched Notes)}
    (h : Session r.watched p origin (journal.watched []) m told') :
    ∃ told calls, told' = told.watched calls ∧ Session r p origin journal m told := by
  induction h with
  | start => exact ⟨journal, [], rfl, .start⟩
  | @step m _ _ ih =>
    obtain ⟨told, calls, rfl, session⟩ := ih
    obtain ⟨called, same, -⟩ := observedStep_watched r p m told calls
    rw [same]
    exact ⟨_, _, rfl, session.step⟩
  | @announced m _ _ event error ih =>
    obtain ⟨told, calls, rfl, session⟩ := ih
    rw [announce_watched]
    exact ⟨_, _, rfl, session.announced event error⟩
  | @run m _ _ fuel observed ran ih =>
    obtain ⟨told, calls, rfl, session⟩ := ih
    obtain ⟨calls', same⟩ := run_watched r p m fuel told calls
    obtain ⟨observed, plain, rfl⟩ := Option.map_eq_some_iff.mp (same.symm.trans ran)
    exact ⟨_, _, rfl, session.run plain⟩

/-- What holds at the start, and is kept by steps and announcements, holds along a session. -/
theorem Session.invariant {P : Machine → Journal Notes → Prop}
    (h : Session r p origin journal m told) (start : P origin journal)
    (step : ∀ m journal, P m journal →
      P (m.observedStep r p journal).machine (m.observedStep r p journal).journal)
    (announced : ∀ m journal event error, P m journal →
      P m (announce r m event error journal).1) : P m told := by
  induction h with
  | start => exact start
  | step _ ih => exact step _ _ ih
  | announced _ event error ih => exact announced _ _ event error ih
  | run _ ran ih => exact run_keeps step announced ih ran

/-- If no rule has raised, the calls of rules are those before the steps of a course to `m`. -/
def OnSchedule (r : Registry Notes) (p : Program) (origin m : Machine)
    (calls : List (RuleCall Notes)) : Prop :=
  (∀ call ∈ calls, call.raised = none) → ∃ made, Course p origin made m ∧ calls = r.schedule made

/-- The calls of rules since a machine was fresh are on schedule. -/
theorem Session.onSchedule {told' : Journal (Watched Notes)} (fresh : origin.IsFresh)
    (h : Session r.watched p origin (journal.watched []) m told') :
    ∃ told calls, told' = Journal.watched told calls ∧ OnSchedule r p origin m calls := by
  refine h.invariant (P := fun m told' => ∃ told calls, told' = Journal.watched told calls ∧
    OnSchedule r p origin m calls) ?_ ?_ ?_
  · exact ⟨journal, [], rfl, fun _ => ⟨[], .nil, rfl⟩⟩
  · rintro m _ ⟨told, calls, rfl, scheduled⟩
    obtain ⟨called, same, calling⟩ := observedStep_watched r p m told calls
    rw [same]
    refine ⟨_, _, rfl, fun silent => ?_⟩
    obtain ⟨before, now⟩ := List.forall_mem_append.mp silent
    obtain ⟨made, course, rfl⟩ := scheduled before
    show ∃ made, Course p origin made (m.observedStep r p told).machine ∧ _
    obtain ⟨stays, rfl⟩ | ⟨i, next, moves, rfl⟩ := calling now
    · rw [stays]
      exact ⟨made, course, List.append_nil _⟩
    · rw [moves]
      have number : m.executed = made.length := by
        rw [course.executed_eq, ← fresh]
        exact Nat.zero_add _
      refine ⟨made ++ [⟨m, i⟩], course_concat_iff.mpr ⟨course, next, rfl⟩, ?_⟩
      rw [Registry.schedule_concat, number]
  · rintro m _ event error ⟨told, calls, rfl, scheduled⟩
    rw [announce_watched]
    exact ⟨_, _, rfl, scheduled⟩

/-- A rule that raises is the last one called, and stops the machine before the instruction. -/
theorem observedStep_watched_of_raised {cause : Raised} (next : m.next p = .instruction i)
    (raises : (r.beforeStep m (r.snapshot m i) told).2 = some cause)
    (calls : List (RuleCall Notes)) :
    ∃ before rule later told', r.due m.executed = before ++ rule :: later ∧
      m.observedStep r p told = ⟨m, told', some (m.ruleStop i cause)⟩ ∧
      m.observedStep r.watched p (told.watched calls) =
        ⟨m, told'.watched (calls ++ (before.map (fun rule => ⟨rule, m, r.snapshot m i, none⟩) ++
          [⟨rule, m, r.snapshot m i, some cause⟩])), some (m.ruleStop i cause)⟩ := by
  obtain ⟨called, told', raised, fires⟩ :=
    StepRule.exists_fires m (r.snapshot m i) (r.due m.executed) told
  obtain ⟨plain, watched⟩ := Registry.beforeStep_of_fires fires calls
  obtain rfl : raised = some cause := (congrArg Prod.snd plain).symm.trans raises
  obtain ⟨before, rule, later, due, rfl⟩ := fires.exists_raising rfl
  exact ⟨before, rule, later, told', due, observedStep_eq_of_raised next plain,
    observedStep_eq_of_raised next watched⟩

/-- The rules are shown the steps of a course as they are. -/
theorem Course.shows (h : Course p origin made m) (fresh : origin.IsFresh) (r : Registry Notes)
    {number : Nat} {s : Step} (made_s : made[number]? = some s) :
    (r.snapshot s.before s.instruction).Shows r number s := by
  obtain ⟨inside, rfl⟩ := List.getElem?_eq_some_iff.mp made_s
  have split : made = made.take number ++ made[number] :: made.drop (number + 1) := by
    rw [← List.drop_eq_getElem_cons, List.take_append_drop]
  rw [split, course_split_iff] at h
  have executed : made[number].before.executed = number := by
    rw [h.1.executed_eq, ← fresh, List.length_take, Nat.min_eq_left (Nat.le_of_lt inside)]
    exact Nat.zero_add _
  have shows := r.snapshot_shows made[number] (h.1.lastWritten fresh).1
  rwa [executed] at shows

end Machine

/-! ## Intervals -/

def Registry.HasIntervals (r : Registry Notes) : Prop :=
  ∀ rule ∈ r.rules, 1 ≤ rule.every

theorem Registry.HasIntervals.builtin (debug debugHeap : Bool) :
    (Registry.builtin debug debugHeap : Registry Notes).HasIntervals := by
  intro rule member
  have tracer : rule = .tracer debugHeap := by
    simp only [Registry.builtin] at member
    split at member
    · exact List.mem_singleton.mp member
    · cases member
  rw [tracer]
  exact Int.le_refl 1

theorem Registry.HasIntervals.add {r : Registry Notes} (h : r.HasIntervals) {s : Subscription}
    {handler : Handler Notes} {observer : Observer Notes} (grants : s.Grants handler observer) :
    (r.add observer).HasIntervals := by
  cases grants with
  | event => exact h
  | named _ positive | unnamed _ positive =>
    exact List.forall_mem_append.mpr ⟨h, List.forall_mem_singleton.mpr positive⟩

namespace Interface

variable {s : Interface Notes}

theorem hasIntervals_ask (h : s.registry.HasIntervals) (owner : String)
    (request : Request Notes) : (s.ask owner request).1.registry.HasIntervals := by
  obtain ⟨subscription, handler, observer, -, grants, same⟩ |
    ⟨subscription, handler, failure, -, -, same⟩ | ⟨-, same⟩ := s.ask_cases owner request
  · rw [same]
    exact h.add grants
  · rw [same]
    exact h
  · rw [same]
    exact h

/-- Every rule that is registered has a positive interval. -/
theorem hasIntervals_after (debug debugHeap : Bool) (calls : List (Call Notes)) :
    ((start debug debugHeap).after calls).registry.HasIntervals := by
  induction calls using List.reverseRecOn with
  | nil => exact .builtin debug debugHeap
  | append_singleton calls call ih =>
    rw [after, List.foldl_append]
    exact hasIntervals_ask ih call.owner call.request

/-- A step rule with an interval below one is not registered. -/
theorem ask_refused {owner owner' name : String} {every : Int} {wantsHeap : Bool}
    {request : Request Notes} {handler : Handler Notes}
    (asks : request.subscription? owner s.decorators =
      some (⟨.steps every name wantsHeap, owner'⟩, handler)) (below : every < 1) :
    ∃ failure, s.ask owner request = (s, some failure) ∧
      ((name ≠ "" ∨ ∃ own, handler.name = .ok own) → failure = .badInterval) := by
  rw [(ask_of_subscription asks).1]
  by_cases named : name ≠ "" ∨ ∃ own, handler.name = .ok own
  · exact ⟨_, register_of_refuses (.below named below) s, fun _ => rfl⟩
  · cases own : handler.name with
    | ok own' => exact absurd (.inr ⟨own', own⟩) named
    | error notice =>
      have empty : name = "" := not_not.mp fun given => named (.inl given)
      subst empty
      exact ⟨_, register_of_refuses (.nameless own) s, fun named' => absurd named' (own ▸ named)⟩

end Interface

namespace Machine

variable {r : Registry Notes} {p : Program} {origin m : Machine} {i : Instruction}
  {journal told : Journal Notes} {made : List Step}

/-- When step rules are called, and on what. Whatever steps and runs are made from a fresh machine,
as long as no rule raises, there is one call for each step that was executed, in this order, and for
each rule whose interval divides the number of the step, in the order of registration. It is made on
the machine as it is right before the instruction, and this is what the rule is shown of it. A rule
that raises prevents the calls behind it and the instruction. A rule whose interval is below one is
not registered. -/
theorem rules_fire_on_schedule (fresh : origin.IsFresh) (r : Registry Notes) (p : Program)
    (journal : Journal Notes) :
    (∀ m told, Session r p origin journal m told →
      ∃ calls, Session r.watched p origin (journal.watched []) m (told.watched calls)) ∧
    (∀ m told', Session r.watched p origin (journal.watched []) m told' →
      ∃ told calls, told' = told.watched calls ∧ Session r p origin journal m told ∧
        ((∀ call ∈ calls, call.raised = none) →
          ∃ made, Course p origin made m ∧ calls = r.schedule made ∧
            ∀ number s, made[number]? = some s →
              (r.snapshot s.before s.instruction).Shows r number s)) ∧
    (∀ m i told cause, m.next p = .instruction i →
      (r.beforeStep m (r.snapshot m i) told).2 = some cause →
      ∀ calls, ∃ before rule later told', r.due m.executed = before ++ rule :: later ∧
        m.observedStep r p told = ⟨m, told', some (m.ruleStop i cause)⟩ ∧
        m.observedStep r.watched p (told.watched calls) =
          ⟨m, told'.watched (calls ++ (before.map (fun rule => ⟨rule, m, r.snapshot m i, none⟩) ++
            [⟨rule, m, r.snapshot m i, some cause⟩])), some (m.ruleStop i cause)⟩) ∧
    (∀ (s : Interface Notes) (owner : String) (request : Request Notes) (every : Int)
        (name owner' : String) (wantsHeap : Bool) (handler : Handler Notes),
      request.subscription? owner s.decorators =
          some (⟨.steps every name wantsHeap, owner'⟩, handler) → every < 1 →
        ∃ failure, s.ask owner request = (s, some failure) ∧
          ((name ≠ "" ∨ ∃ own, handler.name = .ok own) → failure = .badInterval)) ∧
    ∀ (debug debugHeap : Bool) (calls : List (Interface.Call Notes)),
      ∀ rule ∈ ((Interface.start debug debugHeap).after calls).registry.rules, 1 ≤ rule.every := by
  refine ⟨fun m told => Session.watched, fun m told' session => ?_,
    fun m i told cause next raises => observedStep_watched_of_raised next raises,
    fun s owner request every name owner' wantsHeap handler => Interface.ask_refused,
    Interface.hasIntervals_after⟩
  obtain ⟨told, calls, rfl, plain⟩ := session.unwatched
  obtain ⟨_, _, same, onSchedule⟩ := session.onSchedule fresh
  cases same
  refine ⟨told, calls, rfl, plain, fun silent => ?_⟩
  obtain ⟨made, course, scheduled⟩ := onSchedule silent
  exact ⟨made, course, scheduled, fun number s => course.shows fresh r⟩

def idleRule (name : String) (every : Int) (wantsHeap : Bool) : StepRule Unit where
  every := every
  name := name
  owner := "inline"
  wantsHeap := wantsHeap
  action := .react fun _ _ notes => (notes, none)

/-- Two rules, the second of which asks for the heap. -/
def halvesAndThirds : Registry Unit :=
  ⟨[], [idleRule "halves" 2 false, idleRule "thirds" 3 true]⟩

def storeThenExit : Program :=
  .ofList [⟨.stack, .push, some (.number 0), none⟩, ⟨.stack, .push, some (.number 9), none⟩,
    ⟨.heap, .store, none, none⟩, ⟨.flow, .exit, none, none⟩]

/-- A run of four steps calls both rules on its first step, and each on one more. Both are shown the
heap. -/
theorem halves_and_thirds_called :
    ∃ observed made, (start 2 false (.ofText "")).IsFresh ∧
      (start 2 false (.ofText "")).run 5 halvesAndThirds.watched storeThenExit
        (Journal.watched ⟨#[], ()⟩ []) = some observed ∧ observed.stop = none ∧
      Course storeThenExit (start 2 false (.ofText "")) made observed.machine ∧ made.length = 4 ∧
      observed.journal.notes.calls = halvesAndThirds.schedule made ∧
      observed.journal.notes.calls.map
          (fun call => (call.rule.name, call.snapshot.step, call.snapshot.heap)) =
        [("halves", 0, some []), ("thirds", 0, some []), ("halves", 2, some []),
          ("thirds", 3, some [(0, 9)])] := by
  have fresh : (start 2 false (.ofText "")).IsFresh := rfl
  obtain ⟨-, watched, -⟩ := rules_fire_on_schedule fresh halvesAndThirds storeThenExit ⟨#[], ()⟩
  have ran : (start 2 false (.ofText "")).run 5 halvesAndThirds.watched storeThenExit
      (Journal.watched ⟨#[], ()⟩ []) = some _ := rfl
  obtain ⟨told, calls, same, -, scheduled⟩ := watched _ _ (.run .start ran)
  cases same
  obtain ⟨made, course, scheduled, -⟩ := scheduled (by decide)
  have count : 4 = 0 + made.length := course.executed_eq
  exact ⟨_, made, fresh, ran, rfl, course, by omega, scheduled, rfl⟩

end Machine

end Whitespace
