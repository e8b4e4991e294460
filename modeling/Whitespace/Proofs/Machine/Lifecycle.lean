import Whitespace.Proofs.Machine.Completion
import Whitespace.Proofs.Machine.Lockstep

/-!
# The life of a run

A run announces its start, then either its end by an exit or the runtime error that stopped it, and
nothing else. On each of these events the hooks that are registered for it are called in order, up
to the first that raises. An error that a hook raises becomes a runtime error or the cause of one,
but an interrupt ends the run at once, even where a runtime error is reported. To tell which hooks a
run has called, and on what, the hooks record their calls; that changes nothing else about the run.

Results:
1. `Hook.Calls.callAll_recorded`: the calls that are recorded on an event.
2. `Machine.stepsEnd_iff`: how the steps of a run end.
3. `Machine.run_lifecycle`: all that runs do, call and come to.
-/

namespace Whitespace

variable {Notes : Type}

/-! ## Recorded calls -/

/-- Notes, and the calls of hooks so far, each with the event that the hook was called on. -/
structure Recorded (Notes : Type) where
  notes : Notes
  calls : List (Hook Notes × Event)

/-- The hook, which records that it is called. -/
def Hook.recorded (hook : Hook Notes) : Hook (Recorded Notes) where
  event := hook.event
  priority := hook.priority
  name := hook.name
  owner := hook.owner
  react event recorded :=
    let (notes, raised) := hook.react event recorded.notes
    (⟨notes, recorded.calls ++ [(hook, event)]⟩, raised)

def Action.recorded : Action Notes → Action (Recorded Notes)
  | trace => .trace
  | react f => .react fun m snapshot recorded =>
    let (notes, raised) := f m snapshot recorded.notes
    (⟨notes, recorded.calls⟩, raised)

def StepRule.recorded (rule : StepRule Notes) : StepRule (Recorded Notes) where
  every := rule.every
  name := rule.name
  owner := rule.owner
  wantsHeap := rule.wantsHeap
  action := rule.action.recorded

/-- The observers, whose hooks record that they are called. -/
def Registry.recorded (r : Registry Notes) : Registry (Recorded Notes) :=
  ⟨r.hooks.map Hook.recorded, r.rules.map StepRule.recorded⟩

def Journal.recorded (journal : Journal Notes) (calls : List (Hook Notes × Event)) :
    Journal (Recorded Notes) :=
  ⟨journal.trace, journal.notes, calls⟩

def Observed.recorded (observed : Observed Notes) (calls : List (Hook Notes × Event)) :
    Observed (Recorded Notes) :=
  ⟨observed.machine, observed.journal.recorded calls, observed.stop⟩

/-! ## Emissions -/

/-- `Hook.Calls event hooks notes called notes' raised`: hooks are called on an event one after the
other, up to and including the first that raises; those are `called`. -/
inductive Hook.Calls (event : Event) :
    List (Hook Notes) → Notes → List (Hook Notes) → Notes → Option Raised → Prop
  | done {notes : Notes} : Calls event [] notes [] notes none
  | raises {hook : Hook Notes} {hooks : List (Hook Notes)} {notes notes' : Notes} {raised : Raised}
      (reacts : hook.react event notes = (notes', some raised)) :
      Calls event (hook :: hooks) notes [hook] notes' (some raised)
  | passes {hook : Hook Notes} {hooks called : List (Hook Notes)} {notes told notes' : Notes}
      {raised : Option Raised} (reacts : hook.react event notes = (told, none))
      (calls : Calls event hooks told called notes' raised) :
      Calls event (hook :: hooks) notes (hook :: called) notes' raised

/-- `r.Emits event journal calls journal' raised`: the hooks on the event are called on it, up to
the first that raises. -/
inductive Registry.Emits (r : Registry Notes) (event : Event) :
    Journal Notes → List (Hook Notes × Event) → Journal Notes → Option Raised → Prop
  | intro {journal : Journal Notes} {called : List (Hook Notes)} {notes : Notes}
      {raised : Option Raised}
      (calls : Hook.Calls event (r.hooksOn event.name) journal.notes called notes raised) :
      Emits r event journal (called.map (·, event)) ⟨journal.trace, notes⟩ raised

namespace Hook

variable {event : Event} {hooks called : List (Hook Notes)} {notes notes' : Notes}
  {raised : Option Raised}

theorem exists_calls (event : Event) (hooks : List (Hook Notes)) (notes : Notes) :
    ∃ called notes' raised, Calls event hooks notes called notes' raised := by
  induction hooks generalizing notes with
  | nil => exact ⟨[], notes, none, .done⟩
  | cons hook hooks ih =>
    rcases hr : hook.react event notes with ⟨told, _ | raised⟩
    · obtain ⟨called, notes', raised, calls⟩ := ih told
      exact ⟨_, notes', raised, .passes hr calls⟩
    · exact ⟨_, told, some raised, .raises hr⟩

theorem Calls.callAll (h : Calls event hooks notes called notes' raised) :
    Hook.callAll event hooks notes = (notes', raised) := by
  induction h with
  | done => rfl
  | raises reacts => simp only [Hook.callAll, reacts]
  | passes reacts _ ih => simp only [Hook.callAll, reacts, ih]

/-- The calls that are recorded on an event are those up to the first hook that raises. -/
theorem Calls.callAll_recorded (h : Calls event hooks notes called notes' raised)
    (before : List (Hook Notes × Event)) :
    Hook.callAll event (hooks.map recorded) ⟨notes, before⟩ =
      (⟨notes', before ++ called.map (·, event)⟩, raised) := by
  induction h generalizing before with
  | done => rw [List.map_nil, List.map_nil, List.append_nil]; rfl
  | raises reacts => simp only [List.map_cons, Hook.callAll, recorded, reacts]; rfl
  | passes reacts _ ih =>
    simp only [List.map_cons, Hook.callAll, recorded, reacts, ih, List.append_assoc]
    rfl

end Hook

namespace Registry

variable {r : Registry Notes} {event : Event} {journal journal' : Journal Notes}
  {calls : List (Hook Notes × Event)} {raised : Option Raised}

theorem exists_emits (r : Registry Notes) (event : Event) (journal : Journal Notes) :
    ∃ calls journal' raised, r.Emits event journal calls journal' raised := by
  obtain ⟨called, notes, raised, h⟩ := Hook.exists_calls event (r.hooksOn event.name) journal.notes
  exact ⟨_, _, raised, .intro h⟩

theorem hooksOn_recorded (r : Registry Notes) (event : String) :
    r.recorded.hooksOn event = (r.hooksOn event).map Hook.recorded := by
  unfold hooksOn recorded
  rw [List.filter_map]
  rfl

theorem Emits.emit (h : r.Emits event journal calls journal' raised) :
    r.emit event journal = (journal', raised) := by
  obtain ⟨h⟩ := h
  simp only [Registry.emit, h.callAll]

theorem Emits.emit_recorded (h : r.Emits event journal calls journal' raised)
    (before : List (Hook Notes × Event)) :
    r.recorded.emit event (journal.recorded before) =
      (journal'.recorded (before ++ calls), raised) := by
  obtain ⟨h⟩ := h
  simp only [Registry.emit, hooksOn_recorded, Journal.recorded, h.callAll_recorded]

end Registry

/-! ## Recording changes nothing -/

namespace Registry

theorem snapshot_recorded (r : Registry Notes) (m : Machine) (i : Instruction) :
    r.recorded.snapshot m i = r.snapshot m i := by
  have wants : r.recorded.wantsHeap = r.wantsHeap := List.any_map
  exact snapshot_congr wants m i

/-- Rules call no hook. -/
theorem rulesAgree_recorded (r : Registry Notes) (calls : List (Hook Notes × Event)) :
    r.RulesAgree (fun journal journal' => journal' = journal.recorded calls) r.recorded := by
  rintro m i journal _ rfl
  rw [snapshot_recorded]
  refine StepRule.callAll_alike ?_ rfl
  refine List.forall₂_map_right_iff.mpr (List.forall₂_same.mpr fun rule _ => ⟨rfl, ?_⟩)
  rintro journal _ rfl
  unfold StepRule.call StepRule.recorded
  cases rule.action <;> exact .intro rfl

end Registry

namespace Machine

variable {r : Registry Notes} {p : Program} {m m' : Machine} {journal journal' : Journal Notes}
  {calls : List (Hook Notes × Event)} {stop : Option Stop} {fuel : Nat}

theorem loop_recorded :
    m.loop r.recorded p fuel (journal.recorded calls) =
      (m.loop r p fuel journal).map (·.recorded calls) := by
  have alike : Option.Rel _ (m.loop r p fuel journal) _ :=
    loop_alike (r.rulesAgree_recorded calls) fuel m rfl
  generalize m.loop r p fuel journal = looped at alike ⊢
  generalize m.loop r.recorded p fuel (journal.recorded calls) = looped' at alike ⊢
  cases alike with
  | none => rfl
  | some alike =>
    obtain ⟨rfl⟩ := alike
    rfl

/-! ## How the steps end -/

/-- `StepsEnd r p m journal m' journal' stop`: the steps of a run lead from `m` to `m'` and end
there. The program has exited, or it has no more instructions, or a rule raises before the next one,
or the next one does not complete, or it lies outside the program. -/
inductive StepsEnd (r : Registry Notes) (p : Program) (m : Machine) (journal : Journal Notes) :
    Machine → Journal Notes → Option Stop → Prop
  | exited {m' : Machine} {journal' : Journal Notes}
      (proceeds : Proceeds r p m journal m' journal') (done : m'.done = true) :
      StepsEnd r p m journal m' journal' none
  | unterminated {m' : Machine} {journal' : Journal Notes}
      (proceeds : Proceeds r p m journal m' journal') (going : m'.done = false)
      (past : p.size ≤ m'.pointer) :
      StepsEnd r p m journal m' journal' (some (.fault (.ofFault (.missingTermination m'.last))))
  | ruleRaised {m' : Machine} {i : Instruction} {journal' told : Journal Notes} {raised : Raised}
      (proceeds : Proceeds r p m journal m' journal') (next : m'.next p = .instruction i)
      (raises : r.beforeStep m' (r.snapshot m' i) journal' = (told, some raised)) :
      StepsEnd r p m journal m' told (some (m'.ruleStop i raised))
  | stopped {m' : Machine} {i : Instruction} {journal' told : Journal Notes} {stop : Stop}
      (proceeds : Proceeds r p m journal m' journal') (next : m'.next p = .instruction i)
      (silent : r.beforeStep m' (r.snapshot m' i) journal' = (told, none))
      (stops : (m'.perform i).stop = some stop) :
      StepsEnd r p m journal (m'.perform i).machine told (some stop)
  | outside {m' : Machine} {journal' : Journal Notes}
      (proceeds : Proceeds r p m journal m' journal') (next : m'.next p = .outside) :
      StepsEnd r p m journal m' journal' (some .outsideProgram)

/-- Why a loop has ended: one that halts without an exit lacks its termination. -/
def ending (observed : Observed Notes) : Option Stop :=
  match observed.stop with
  | some stop => some stop
  | none =>
    if observed.machine.done then none
    else some (.fault (.ofFault (.missingTermination observed.machine.last)))

theorem StepsEnd.exists_loop (h : StepsEnd r p m journal m' journal' stop) :
    ∃ fuel observed, m.loop r p fuel journal = some observed ∧
      m' = observed.machine ∧ journal' = observed.journal ∧ stop = ending observed := by
  cases h with
  | exited proceeds done =>
    obtain ⟨fuel, h⟩ := proceeds.exists_loop (loop_of_halted (next_of_done done))
    exact ⟨fuel, _, h, rfl, rfl, by simp [ending, done]⟩
  | unterminated proceeds going past =>
    obtain ⟨fuel, h⟩ := proceeds.exists_loop (loop_of_halted (if_pos (.inr past)))
    exact ⟨fuel, _, h, rfl, rfl, by simp [ending, going]⟩
  | ruleRaised proceeds next raises =>
    have hs := observedStep_eq_of_raised next raises
    obtain ⟨fuel, h⟩ := proceeds.exists_loop
      (loop_of_stop (by rw [next]; nofun) (congrArg Observed.stop hs))
    exact ⟨fuel, _, h, by rw [hs], by rw [hs], by rw [hs]; rfl⟩
  | stopped proceeds next silent stops =>
    have hs := observedStep_eq_of_silent next silent
    obtain ⟨fuel, h⟩ := proceeds.exists_loop
      (loop_of_stop (by rw [next]; nofun) ((congrArg Observed.stop hs).trans stops))
    exact ⟨fuel, _, h, by rw [hs], by rw [hs], by rw [hs, ending]; simp only [stops]⟩
  | outside proceeds next =>
    have hs : m'.observedStep r p journal' = _ := observedStep_eq_of_outside next
    obtain ⟨fuel, h⟩ := proceeds.exists_loop
      (loop_of_stop (by rw [next]; nofun) (congrArg Observed.stop hs))
    exact ⟨fuel, _, h, by rw [hs], by rw [hs], by rw [hs]; rfl⟩

theorem stepsEnd_of_loop {observed : Observed Notes} (h : m.loop r p fuel journal = some observed) :
    StepsEnd r p m journal observed.machine observed.journal (ending observed) := by
  obtain ⟨last, before, proceeds, ⟨next, rfl⟩ | ⟨next, rfl, stops⟩⟩ := exists_proceeds_of_loop h
  · cases hd : last.done with
    | true =>
      have he : ending ⟨last, before, none⟩ = none := by simp [ending, hd]
      rw [he]
      exact .exited proceeds hd
    | false =>
      have he : ending ⟨last, before, none⟩ =
          some (.fault (.ofFault (.missingTermination last.last))) := by simp [ending, hd]
      rw [he]
      refine .unterminated proceeds hd ?_
      unfold Machine.next at next
      split at next
      · next halted => exact halted.resolve_left (by rw [hd]; nofun)
      · split at next <;> cases next
  · cases hn : last.next p with
    | halted => exact absurd hn next
    | outside =>
      rw [observedStep_eq_of_outside hn]
      exact .outside proceeds hn
    | instruction i =>
      rcases hr : r.beforeStep last (r.snapshot last i) before with ⟨told, _ | raised⟩
      · rw [observedStep_eq_of_silent hn hr] at stops ⊢
        obtain ⟨stop, hstop⟩ : ∃ stop, (last.perform i).stop = some stop :=
          Option.ne_none_iff_exists'.mp stops
        have he : ending ⟨(last.perform i).machine, told, (last.perform i).stop⟩ = some stop := by
          simp only [ending, hstop]
        rw [he]
        exact .stopped proceeds hn hr hstop
      · rw [observedStep_eq_of_raised hn hr]
        exact .ruleRaised proceeds hn hr

/-- How the steps of a run end. -/
theorem stepsEnd_iff :
    StepsEnd r p m journal m' journal' stop ↔
      ∃ fuel observed, m.loop r p fuel journal = some observed ∧
        m' = observed.machine ∧ journal' = observed.journal ∧ stop = ending observed := by
  constructor
  · exact StepsEnd.exists_loop
  · rintro ⟨fuel, observed, h, rfl, rfl, rfl⟩
    exact stepsEnd_of_loop h

/-! ## How a run ends -/

/-- `Concludes r m journal stop calls observed`: the steps have ended at `m`, and the hooks on the
event that this is are called. Behind an exit, what one of them raises ends the run. A runtime error
that has ended the steps stays the error of the run whatever they do, and gets the error that one of
them raises as its cause; only an interrupt takes its place. Anything else that has ended the steps
is no event. -/
inductive Concludes (r : Registry Notes) (m : Machine) (journal : Journal Notes) :
    Option Stop → List (Hook Notes × Event) → Observed Notes → Prop
  | exit {calls : List (Hook Notes × Event)} {told : Journal Notes} {raised : Option Raised}
      (emits : r.Emits ⟨Event.endName, some m, none⟩ journal calls told raised) :
      Concludes r m journal none calls ⟨m, told, raised.map (m.hookStop Event.endName)⟩
  | fault {error : RuntimeError} {calls : List (Hook Notes × Event)} {told : Journal Notes}
      {raised : Option Raised}
      (emits : r.Emits ⟨Event.errorName, some m, some (m.placed error)⟩ journal calls told raised)
      (proceeds : ∀ notice, raised ≠ some (.interrupt notice)) :
      Concludes r m journal (some (.fault error)) calls
        ⟨m, told, some (.fault { m.placed error with
          cause := (raised.map fun raised => (m.hookStop Event.errorName raised).notice).or
            error.cause })⟩
  | interrupted {error : RuntimeError} {calls : List (Hook Notes × Event)} {told : Journal Notes}
      {notice : Notice}
      (emits : r.Emits ⟨Event.errorName, some m, some (m.placed error)⟩ journal calls told
        (some (.interrupt notice))) :
      Concludes r m journal (some (.fault error)) calls ⟨m, told, some (.foreign notice)⟩
  | escape {stop : Stop} (other : ∀ error, stop ≠ .fault error) :
      Concludes r m journal (some stop) [] ⟨m, journal, some stop⟩

/-- `Lifecycle r p m journal calls observed`: a run of `m` calls the hooks `calls`, in this order,
and comes to `observed`. It starts with the hooks on its start. If one of them raises, the run ends
with that, nothing is executed, and no other hook is called. -/
inductive Lifecycle (r : Registry Notes) (p : Program) (m : Machine) (journal : Journal Notes) :
    List (Hook Notes × Event) → Observed Notes → Prop
  | startFails {calls : List (Hook Notes × Event)} {started : Journal Notes} {raised : Raised}
      (start : r.Emits ⟨Event.startName, some m, none⟩ journal calls started (some raised)) :
      Lifecycle r p m journal calls
        ⟨m, started, some (m.hookStop Event.startName raised)⟩
  | runs {calls calls' : List (Hook Notes × Event)} {started journal' : Journal Notes}
      {m' : Machine} {stop : Option Stop} {observed : Observed Notes}
      (start : r.Emits ⟨Event.startName, some m, none⟩ journal calls started none)
      (steps : StepsEnd r p m started m' journal' stop)
      (concludes : Concludes r m' journal' stop calls' observed) :
      Lifecycle r p m journal (calls ++ calls') observed

theorem announce_recorded {event : String} {error : Option RuntimeError} {raised : Option Raised}
    (h : r.Emits ⟨event, some m, error⟩ journal calls journal' raised)
    (before : List (Hook Notes × Event)) :
    announce r.recorded m event error (journal.recorded before) =
      (journal'.recorded (before ++ calls), raised.map (m.hookStop event)) := by
  unfold announce
  rw [h.emit_recorded]

/-- What a runtime error comes to that has ended the steps. -/
theorem concludes_fault_iff {error : RuntimeError} {observed : Observed Notes} :
    Concludes r m journal (some (.fault error)) calls observed ↔ ∃ told raised,
      r.Emits ⟨Event.errorName, some m, some (m.placed error)⟩ journal calls told raised ∧
        observed =
          ⟨m, told,
            some (reportStop (m.placed error) (raised.map (m.hookStop Event.errorName)))⟩ := by
  constructor
  · intro h
    cases h with
    | @fault _ _ told raised emits proceeds =>
      refine ⟨told, raised, emits, ?_⟩
      rcases raised with _ | raised
      · rfl
      · cases raised with
        | interrupt notice => exact absurd rfl (proceeds notice)
        | device | runtime | foreign => rfl
    | interrupted emits => exact ⟨_, _, emits, rfl⟩
    | escape other => exact absurd rfl (other error)
  · rintro ⟨told, raised, emits, rfl⟩
    rcases raised with _ | raised
    · exact .fault emits nofun
    · cases raised with
      | interrupt notice => exact .interrupted emits
      | device | runtime | foreign => exact .fault emits nofun

theorem exists_concludes (r : Registry Notes) (m : Machine) (journal : Journal Notes)
    (stop : Option Stop) : ∃ calls observed, Concludes r m journal stop calls observed := by
  rcases stop with _ | stop
  · obtain ⟨calls, told, raised, emits⟩ :=
      r.exists_emits ⟨Event.endName, some m, none⟩ journal
    exact ⟨_, _, .exit emits⟩
  · cases stop with
    | fault error =>
      obtain ⟨calls, told, raised, emits⟩ :=
        r.exists_emits ⟨Event.errorName, some m, some (m.placed error)⟩ journal
      exact ⟨_, _, concludes_fault_iff.mpr ⟨told, raised, emits, rfl⟩⟩
    | _ => exact ⟨_, _, .escape (by rintro error ⟨⟩)⟩

theorem Concludes.report_recorded {error : RuntimeError} {observed : Observed Notes}
    (h : Concludes r m journal (some (.fault error)) calls observed)
    (before : List (Hook Notes × Event)) :
    report r.recorded m (journal.recorded before) error =
      observed.recorded (before ++ calls) := by
  obtain ⟨told, raised, emits, rfl⟩ := concludes_fault_iff.mp h
  simp only [report, announce_recorded emits]
  rfl

theorem Concludes.conclude_recorded {looped observed : Observed Notes}
    (h : Concludes r looped.machine looped.journal (ending looped) calls observed)
    (before : List (Hook Notes × Event)) :
    conclude r.recorded (looped.recorded before) = observed.recorded (before ++ calls) := by
  obtain ⟨m, journal, _ | stop⟩ := looped
  · unfold ending at h
    cases hd : m.done with
    | true =>
      simp only [hd, ↓reduceIte] at h
      obtain @⟨_, told, raised, emits⟩ := h
      simp only [conclude, Observed.recorded, hd, ↓reduceIte, announce_recorded emits]
    | false =>
      simp only [hd, Bool.false_eq_true, ↓reduceIte] at h
      simp only [conclude, Observed.recorded, hd, Bool.false_eq_true, ↓reduceIte]
      exact h.report_recorded before
  · cases stop with
    | fault error => exact h.report_recorded before
    | _ =>
      cases h with
      | escape other => rw [conclude_of_not_fault rfl other, List.append_nil]

end Machine

theorem Observed.recorded_inj {observed observed' : Observed Notes}
    {calls calls' : List (Hook Notes × Event)}
    (h : observed.recorded calls = observed'.recorded calls') :
    observed = observed' ∧ calls = calls' := by
  obtain ⟨m, ⟨trace, notes⟩, stop⟩ := observed
  obtain ⟨m', ⟨trace', notes'⟩, stop'⟩ := observed'
  cases h
  exact ⟨rfl, rfl⟩

namespace Machine

variable {r : Registry Notes} {p : Program} {m : Machine} {journal : Journal Notes}
  {calls : List (Hook Notes × Event)} {observed : Observed Notes}

/-- A recorded run goes through a life of the run. -/
theorem lifecycle_of_run {fuel : Nat}
    (h : m.run fuel r.recorded p (journal.recorded []) = some (observed.recorded calls)) :
    Lifecycle r p m journal calls observed := by
  obtain ⟨first, started, raised, start⟩ :=
    r.exists_emits ⟨Event.startName, some m, none⟩ journal
  have announced := announce_recorded start []
  cases raised with
  | some raised =>
    rw [run_of_raised announced] at h
    have same : Observed.recorded ⟨m, started, _⟩ _ = observed.recorded calls := Option.some.inj h
    obtain ⟨rfl, rfl⟩ := Observed.recorded_inj same
    exact .startFails start
  | none =>
    rw [run_of_announced announced, loop_recorded, Option.map_map] at h
    obtain ⟨looped, hl, hc⟩ := Option.map_eq_some_iff.mp h
    obtain ⟨last, final, concludes⟩ :=
      exists_concludes r looped.machine looped.journal (ending looped)
    rw [Function.comp_apply, concludes.conclude_recorded] at hc
    obtain ⟨rfl, rfl⟩ := Observed.recorded_inj hc
    exact .runs start (stepsEnd_of_loop hl) concludes

/-- Every life of a run is that of a recorded run. -/
theorem Lifecycle.exists_run (h : Lifecycle r p m journal calls observed) :
    ∃ fuel, m.run fuel r.recorded p (journal.recorded []) = some (observed.recorded calls) := by
  cases h with
  | startFails start => exact ⟨0, run_of_raised (announce_recorded start [])⟩
  | runs start steps concludes =>
    obtain ⟨fuel, looped, hl, rfl, rfl, rfl⟩ := steps.exists_loop
    refine ⟨fuel, ?_⟩
    rw [run_of_announced (announce_recorded start []), loop_recorded, hl]
    exact congrArg some (concludes.conclude_recorded _)

/-- To record calls changes nothing else. -/
theorem run_recorded_iff {fuel : Nat} :
    m.run fuel r p journal = some observed ↔
      ∃ calls, m.run fuel r.recorded p (journal.recorded []) = some (observed.recorded calls) := by
  let R (journal : Journal Notes) (journal' : Journal (Recorded Notes)) : Prop :=
    ∃ calls, journal' = journal.recorded calls
  have rules : r.RulesAgree R r.recorded := by
    rintro m i journal _ ⟨calls, rfl⟩
    exact (r.rulesAgree_recorded calls m i journal _ rfl).imp fun _ _ h => ⟨calls, h⟩
  have hooks : r.HooksAgree R r.recorded := by
    rintro event journal _ ⟨calls, rfl⟩
    obtain ⟨called, told, raised, emits⟩ := r.exists_emits event journal
    rw [emits.emit, emits.emit_recorded]
    exact .intro ⟨_, rfl⟩
  have alike : Option.Rel (Observed.Alike R) (m.run fuel r p journal)
      (m.run fuel r.recorded p (journal.recorded [])) := run_alike rules hooks fuel m ⟨[], rfl⟩
  generalize m.run fuel r p journal = ran at alike ⊢
  generalize m.run fuel r.recorded p (journal.recorded []) = ran' at alike ⊢
  cases alike with
  | none => simp
  | some alike =>
    obtain @⟨last, told, _, stop, calls, rfl⟩ := alike
    constructor
    · rintro h
      cases h
      exact ⟨calls, rfl⟩
    · rintro ⟨calls', h⟩
      have same : Observed.recorded ⟨last, told, stop⟩ calls = observed.recorded calls' :=
        Option.some.inj h
      rw [(Observed.recorded_inj same).1]

/-- The life of a run. Recording which hooks are called, and on what, changes nothing about a run;
and what recorded runs call and come to are exactly its lives. -/
theorem run_lifecycle (r : Registry Notes) (p : Program) (m : Machine) (journal : Journal Notes) :
    (∀ fuel observed, m.run fuel r p journal = some observed ↔
      ∃ calls, m.run fuel r.recorded p (journal.recorded []) = some (observed.recorded calls)) ∧
    ∀ calls observed,
      (∃ fuel, m.run fuel r.recorded p (journal.recorded []) = some (observed.recorded calls)) ↔
        Lifecycle r p m journal calls observed :=
  ⟨fun _ _ => run_recorded_iff,
    fun _ _ => ⟨fun ⟨_, h⟩ => lifecycle_of_run h, fun h => h.exists_run⟩⟩

/-- A hook on an event that always raises the same. -/
def raising (event : String) (raised : Raised) : Hook Unit where
  event := event
  priority := 0
  name := "leave"
  owner := "inline"
  react _ notes := (notes, some raised)

def discardNothing : Program :=
  .ofList [⟨.stack, .discard, none, none⟩]

/-- What hooks raise decides how a run ends. If a runtime error ends the steps, but a hook that it is
reported to interrupts the run, the error is lost. If that hook raises another error, the cause of
the runtime error is not this one, but the runtime error that it has become. On the start of the run,
a hook that interrupts it is reported by no runtime error. -/
theorem hooks_decide_ending :
    let exits : Raised := .interrupt ⟨"SystemExit", "3"⟩
    let fails : Raised := .foreign ⟨"RuntimeError", "x"⟩
    ∃ error m journal lost kept unstarted,
      StepsEnd ⟨[raising Event.errorName exits], []⟩ discardNothing (start 0 false (.ofText ""))
        ⟨#[], ()⟩ m journal (some (.fault error)) ∧
      error.fault.name = "StackUnderflowError" ∧
      (start 0 false (.ofText "")).run 1 ⟨[raising Event.errorName exits], []⟩ discardNothing
        ⟨#[], ()⟩ = some lost ∧
      lost.stop = some (.foreign ⟨"SystemExit", "3"⟩) ∧
      (start 0 false (.ofText "")).run 1 ⟨[raising Event.errorName fails], []⟩ discardNothing
        ⟨#[], ()⟩ = some kept ∧
      kept.stop = some (.fault { error with
        cause := some ⟨"ExtensionHookError", "Extension hook 'on_error' failed: x"⟩ }) ∧
      (start 0 false (.ofText "")).run 1 ⟨[raising Event.startName exits], []⟩ discardNothing
        ⟨#[], ()⟩ = some unstarted ∧
      unstarted.stop = some (.foreign ⟨"SystemExit", "3"⟩) :=
  ⟨_, _, _, _, _, _, .stopped .refl rfl rfl rfl, rfl, rfl, rfl, rfl, rfl, rfl, rfl⟩

end Machine

end Whitespace
