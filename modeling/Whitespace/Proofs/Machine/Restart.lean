import Whitespace.Proofs.Machine.Bounds
import Whitespace.Proofs.Machine.Likeness

/-!
# Restarts

A machine that was reset is as good as a new one: whatever was done with it before, and however that
ended, the same calls on the same input have the same outcomes from then on. What was shown before
the reset stays shown, and what is shown after it is what the new machine shows.

Results:
1. `Machine.Reachable.reset_eq`: along every history, a reset leads back to the start.
2. `Machine.session_behind`: what was shown before a session does not matter for it, as long as the
   observers do not look at it.
3. `Machine.reset_restarts`: a session with a machine that was reset is the session with a new one.
-/

namespace Whitespace

variable {Notes : Type} {before : String}

/-! ## What was shown before -/

namespace Console

/-- The console, if a text had been shown on it first. -/
def behind (before : String) (c : Console) : Console :=
  { c with shown := before ++ c.shown }

theorem emit_behind (c : Console) (text : String) :
    (c.behind before).emit text = (c.emit text).behind before := by
  simp only [behind, emit, String.append_assoc]

theorem readChar_behind (c : Console) (echo : Bool) :
    (c.behind before).readChar echo = ((c.readChar echo).1, (c.readChar echo).2.behind before) := by
  rcases c with ⟨⟨lines, chars⟩ | ⟨_ | ⟨char, pending⟩⟩, shown⟩
  · rfl
  · rfl
  · cases echo
    · rfl
    · exact Prod.ext rfl (emit_behind ⟨.stream pending, shown⟩ (String.singleton char))

theorem readLine_behind (c : Console) :
    (c.behind before).readLine = (c.readLine.1, c.readLine.2.behind before) := by
  rcases c with ⟨⟨lines, chars⟩ | pending, shown⟩ <;> rfl

end Console

def Machine.behind (before : String) (m : Machine) : Machine :=
  { m with console := m.console.behind before }

def Effect.behind (before : String) (e : Effect) : Effect :=
  { e with machine := e.machine.behind before }

def Event.behind (before : String) (event : Event) : Event :=
  { event with machine := event.machine.map (.behind before) }

def Observed.behind (before : String) (observed : Observed Notes) : Observed Notes :=
  { observed with machine := observed.machine.behind before }

/-- The observers do not look at what was shown. -/
structure Registry.IgnoresShown (r : Registry Notes) : Prop where
  hook : ∀ hook ∈ r.hooks, ∀ before event notes,
    hook.react (event.behind before) notes = hook.react event notes
  rule : ∀ rule ∈ r.rules, ∀ before m snapshot journal,
    rule.call (m.behind before) snapshot journal = rule.call m snapshot journal

theorem Registry.builtin_ignoresShown (debug debugHeap : Bool) :
    (Registry.builtin debug debugHeap : Registry Notes).IgnoresShown where
  hook := fun _ h => by cases h
  rule := by
    intro rule h before m snapshot journal
    unfold builtin at h
    split at h
    · cases List.mem_singleton.mp h
      rfl
    · cases h

/-! ## Executing -/

/-- Consoles are alike if on one of them a text had been shown first. -/
def Likeness.behind (before : String) : Likeness where
  Heaps h h' := h' = h
  Consoles b c b' c' := b' = b ∧ c' = c.behind before
  inside := by
    rintro h _ address cell rfl inside
    exact inside
  read := by
    rintro h _ rfl cell
    rfl
  write := by
    rintro h _ address cell rfl inside value
    rfl
  readChar := by
    rintro _ b c _ ⟨rfl, rfl⟩
    rw [Console.readChar_behind]
    exact ⟨rfl, rfl, rfl⟩
  readLine := by
    rintro _ b c _ ⟨rfl, rfl⟩
    rw [Console.readLine_behind]
    exact ⟨rfl, rfl, rfl⟩
  emit := by
    rintro _ b c _ ⟨rfl, rfl⟩ text
    cases b with
    | false => exact ⟨rfl, Console.emit_behind c text⟩
    | true => exact ⟨rfl, rfl⟩

namespace Machine

theorem alike_behind (before : String) (m : Machine) :
    (Likeness.behind before).Machines m (m.behind before) :=
  ⟨rfl, rfl, rfl, rfl, rfl, rfl, rfl, rfl, rfl, rfl⟩

theorem eq_behind_of_alike {m m' : Machine} (alike : (Likeness.behind before).Machines m m') :
    m' = m.behind before := by
  obtain ⟨stack, calls, heap, pointer, done, executed, last, log, silent, console⟩ := m'
  obtain ⟨rfl, rfl, rfl, rfl, rfl, rfl, rfl, rfl, rfl, rfl⟩ := alike
  rfl

/-- Performing an instruction shows what it shows, whatever was shown before. -/
theorem perform_behind (m : Machine) (i : Instruction) :
    (m.behind before).perform i = (m.perform i).behind before := by
  have same : (Likeness.behind before).Effects (m.perform i) ((m.behind before).perform i) :=
    (alike_behind before m).perform (.inl fun _ _ same => congrArg Heap.size same)
  have machine := eq_behind_of_alike same.machine
  exact congrArg₂ Effect.mk machine same.stop

end Machine

/-! ## Observing -/

variable {r : Registry Notes}

theorem Hook.callAll_behind {hooks : List (Hook Notes)} {event : Event}
    (ignores : ∀ hook ∈ hooks, ∀ notes,
      hook.react (event.behind before) notes = hook.react event notes) (notes : Notes) :
    callAll (event.behind before) hooks notes = callAll event hooks notes := by
  induction hooks generalizing notes with
  | nil => rfl
  | cons hook hooks ih =>
    rw [List.forall_mem_cons] at ignores
    simp only [callAll, ignores.1, ih ignores.2]

theorem StepRule.callAll_behind {rules : List (StepRule Notes)} {m : Machine} {snapshot : Snapshot}
    (ignores : ∀ rule ∈ rules, ∀ journal,
      rule.call (m.behind before) snapshot journal = rule.call m snapshot journal)
    (journal : Journal Notes) :
    callAll (m.behind before) snapshot rules journal = callAll m snapshot rules journal := by
  induction rules generalizing journal with
  | nil => rfl
  | cons rule rules ih =>
    rw [List.forall_mem_cons] at ignores
    simp only [callAll, ignores.1, ih ignores.2]

namespace Registry.IgnoresShown

theorem emit (h : r.IgnoresShown) (event : Event) (journal : Journal Notes) :
    r.emit (event.behind before) journal = r.emit event journal := by
  have hcall : Hook.callAll (event.behind before) (r.hooksOn event.name) journal.notes =
      Hook.callAll event (r.hooksOn event.name) journal.notes :=
    Hook.callAll_behind (fun hook hmem => h.hook hook (List.mem_filter.mp hmem).1 before event) _
  unfold Registry.emit
  rw [← hcall]
  rfl

theorem beforeStep (h : r.IgnoresShown) (m : Machine) (i : Instruction) (journal : Journal Notes) :
    r.beforeStep (m.behind before) (r.snapshot (m.behind before) i) journal =
      r.beforeStep m (r.snapshot m i) journal :=
  StepRule.callAll_behind (fun rule hmem => h.rule rule hmem before m _) journal

end Registry.IgnoresShown

namespace Machine

variable {p : Program}

theorem announce_behind (h : r.IgnoresShown) (m : Machine) (event : String)
    (error : Option RuntimeError) (journal : Journal Notes) :
    announce r (m.behind before) event error journal = announce r m event error journal := by
  have hemit : r.emit ⟨event, some (m.behind before), error⟩ journal =
      r.emit ⟨event, some m, error⟩ journal :=
    h.emit ⟨event, some m, error⟩ journal
  unfold announce
  rw [← hemit]
  rfl

theorem observedStep_behind (h : r.IgnoresShown) (m : Machine) (journal : Journal Notes) :
    (m.behind before).observedStep r p journal = (m.observedStep r p journal).behind before := by
  have hnext : (m.behind before).next p = m.next p := rfl
  unfold observedStep
  rw [hnext]
  cases m.next p with
  | halted | outside => rfl
  | instruction i =>
    simp only [h.beforeStep]
    rcases r.beforeStep m (r.snapshot m i) journal with ⟨after, _ | raised⟩
    · simp only [perform_behind]
      rfl
    · rfl

theorem loop_behind (h : r.IgnoresShown) (fuel : Nat) (m : Machine) (journal : Journal Notes) :
    loop r p fuel (m.behind before) journal =
      (loop r p fuel m journal).map (.behind before) := by
  induction fuel generalizing m journal with
  | zero => rfl
  | succ fuel ih =>
    have hnext : (m.behind before).next p = m.next p := rfl
    have hstop : ((m.observedStep r p journal).behind before).stop =
        (m.observedStep r p journal).stop := rfl
    unfold loop
    simp only [hnext, observedStep_behind h, hstop]
    split
    · rfl
    · split
      · rfl
      · exact ih _ _

theorem report_behind (h : r.IgnoresShown) (m : Machine) (journal : Journal Notes)
    (error : RuntimeError) :
    report r (m.behind before) journal error = (report r m journal error).behind before := by
  unfold report
  simp only [announce_behind h]
  rfl

theorem conclude_behind (h : r.IgnoresShown) (observed : Observed Notes) :
    conclude r (observed.behind before) = (conclude r observed).behind before := by
  obtain ⟨m, journal, stop⟩ := observed
  unfold conclude
  simp only [Observed.behind]
  rcases stop with _ | ⟨error⟩ | _ | _ | _ | _
  · show (if m.done then _ else _) = _
    cases hd : m.done with
    | false => exact report_behind h m journal _
    | true =>
      simp only [announce_behind h]
      rfl
  · exact report_behind h m journal error
  all_goals rfl

theorem run_behind (h : r.IgnoresShown) (fuel : Nat) (m : Machine) (journal : Journal Notes) :
    (m.behind before).run fuel r p journal = (m.run fuel r p journal).map (.behind before) := by
  unfold run
  rw [announce_behind h]
  rcases announce r m Event.startName none journal with ⟨begun, _ | error⟩
  · simp only [loop_behind h, Option.map_map]
    congr 1
    funext observed
    exact conclude_behind h observed
  · rfl

/-! ## Sessions -/

/-- What is done with a machine from outside. -/
inductive Call where
  | step
  /-- A run of at most so many steps. -/
  | run (fuel : Nat)
  | reset

/-- What a call comes to; `none` if a run takes more steps than it may. -/
def call (r : Registry Notes) (p : Program) (m : Machine) (journal : Journal Notes) :
    Call → Option (Observed Notes)
  | .step => some (m.observedStep r p journal)
  | .run fuel => m.run fuel r p journal
  | .reset => some ⟨m.reset, journal, none⟩

/-- What calls come to, one after the other, each on the machine and the journal that the one before
it left. A run that takes more steps than it may ends the session. -/
def session (r : Registry Notes) (p : Program) :
    List Call → Machine → Journal Notes → List (Option (Observed Notes))
  | [], _, _ => []
  | c :: calls, m, journal =>
    match call r p m journal c with
    | none => [none]
    | some observed => some observed :: session r p calls observed.machine observed.journal

theorem call_behind (h : r.IgnoresShown) (m : Machine) (journal : Journal Notes) (c : Call) :
    call r p (m.behind before) journal c = (call r p m journal c).map (.behind before) := by
  cases c with
  | step => exact congrArg some (observedStep_behind h m journal)
  | run fuel => exact run_behind h fuel m journal
  | reset => rfl

/-- What was shown before a session does not matter for it. -/
theorem session_behind (h : r.IgnoresShown) (calls : List Call) (m : Machine)
    (journal : Journal Notes) :
    session r p calls (m.behind before) journal =
      (session r p calls m journal).map (Option.map (.behind before)) := by
  induction calls generalizing m journal with
  | nil => rfl
  | cons c calls ih =>
    unfold session
    rw [call_behind h]
    cases call r p m journal c with
    | none => rfl
    | some observed =>
      rw [Option.map_some, List.map_cons]
      exact congrArg _ (ih observed.machine observed.journal)

/-! ## Restarts -/

/-- The machine with another input to read from. -/
def fed (m : Machine) (input : Input) : Machine :=
  { m with console := { m.console with input := input } }

/-- Executing keeps what a reset takes over from the machine. -/
theorem execute_keeps (m : Machine) (i : Instruction) :
    (m.execute i).machine.heap.size = m.heap.size ∧ (m.execute i).machine.silent = m.silent := by
  have h := executes m i
  generalize m.execute i = e at h ⊢
  cases h with
  | outputCharacter | outputNumber =>
    rw [Effect.completed_machine, output_eq]
    exact ⟨rfl, rfl⟩
  | _ => exact ⟨rfl, rfl⟩

/-- Along every history, a reset leads back to the start, on the console as it is. -/
theorem Reachable.reset_eq {heapSize : Nat} {silent : Bool} {console : Console} {m : Machine}
    (reachable : Reachable r p (start heapSize silent console) m) :
    m.reset = start heapSize silent m.console := by
  have hkept : m.heap.size = heapSize ∧ m.silent = silent := by
    refine reachable.invariant (P := fun m => m.heap.size = heapSize ∧ m.silent = silent)
      ⟨rfl, rfl⟩ ?_ ?_
    · intro m i hm _
      obtain ⟨hsize, hsilent⟩ := execute_keeps (m.record i) i
      exact ⟨hsize.trans hm.1, hsilent.trans hm.2⟩
    · intro m hm
      exact hm
  rw [reset_eq_start, hkept.1, hkept.2]

/-- A machine that was reset is as good as a new one. Whatever steps, runs and resets came before,
and whatever input comes next, a session with it is the session with a new machine on the same
console: it has the same states, journals and errors, call by call. If the observers do not look at
what was shown, it is even the session with a new machine on a console on which nothing was shown
yet, behind what was shown before. -/
theorem reset_restarts {heapSize : Nat} {silent : Bool} {console : Console} {m : Machine}
    (reachable : Reachable r p (start heapSize silent console) m) (input : Input)
    (calls : List Call) (journal : Journal Notes) :
    session r p calls (m.reset.fed input) journal =
        session r p calls (start heapSize silent ⟨input, m.console.shown⟩) journal ∧
      (r.IgnoresShown →
        session r p calls (m.reset.fed input) journal =
          (session r p calls (start heapSize silent ⟨input, ""⟩) journal).map
            (Option.map (.behind m.console.shown))) := by
  have hreset : m.reset.fed input = start heapSize silent ⟨input, m.console.shown⟩ := by
    rw [reachable.reset_eq]
    rfl
  have hbehind : start heapSize silent ⟨input, m.console.shown⟩ =
      (start heapSize silent ⟨input, ""⟩).behind m.console.shown := by
    simp only [start, behind, Console.behind, String.append_empty]
  refine ⟨by rw [hreset], ?_⟩
  intro ignores
  rw [hreset, hbehind]
  exact session_behind ignores calls _ journal

/-- A program that shows one and reads a number refuses a line. Reset and fed with a number, the
traced machine does what a new one does, behind the one that was shown before. -/
theorem restarted_after_refused_line :
    ∃ p m, Program.parse "restart.stl" .stl "SSSTLTLSTSSSLTLTTLLL" = .ok p ∧
      Reachable (.builtin true false : Registry Unit) p
        (start 1 false ⟨.scripted [.ok "x"] [], ""⟩) m ∧
      m.pointer = 4 ∧ m.executed = 4 ∧ m.console.shown = "1" ∧
      (session (.builtin true false : Registry Unit) p [.step, .run 9]
          (m.reset.fed (.scripted [.ok "7"] [])) ⟨#[], ()⟩).map
        (Option.map fun observed => (observed.machine.console.shown, observed.machine.executed)) =
          [some ("1", 1), some ("11", 5)] ∧
      session (.builtin true false : Registry Unit) p [.step, .run 9]
          (m.reset.fed (.scripted [.ok "7"] [])) ⟨#[], ()⟩ =
        (session (.builtin true false : Registry Unit) p [.step, .run 9]
          (start 1 false ⟨.scripted [.ok "7"] [], ""⟩) ⟨#[], ()⟩).map
            (Option.map (.behind "1")) := by
  have parsed : Program.parse "restart.stl" .stl "SSSTLTLSTSSSLTLTTLLL" = .ok (.ofList
      [⟨.stack, .push, some (.number 1), some ⟨"restart.stl", 1, 1⟩⟩,
        ⟨.io, .outputNumber, none, some ⟨"restart.stl", 1, 6⟩⟩,
        ⟨.stack, .push, some (.number 0), some ⟨"restart.stl", 1, 10⟩⟩,
        ⟨.io, .readNumber, none, some ⟨"restart.stl", 1, 14⟩⟩,
        ⟨.flow, .exit, none, some ⟨"restart.stl", 1, 18⟩⟩]) := rfl
  refine ⟨_, _, parsed,
    .step (.step (.step (.step .origin ⟨#[], ()⟩) ⟨#[], ()⟩) ⟨#[], ()⟩) ⟨#[], ()⟩,
    rfl, rfl, rfl, rfl, ?_⟩
  exact (reset_restarts (.step (.step (.step (.step .origin ⟨#[], ()⟩) ⟨#[], ()⟩) ⟨#[], ()⟩)
    ⟨#[], ()⟩) (.scripted [.ok "7"] []) [.step, .run 9] ⟨#[], ()⟩).2
    (Registry.builtin_ignoresShown true false)

end Machine

end Whitespace
