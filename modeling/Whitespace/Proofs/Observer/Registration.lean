import Mathlib.Data.List.Basic
import Whitespace.Extension.Load
import Whitespace.Proofs.Machine.Lifecycle

/-!
# Registration

Hooks and step rules are registered one after the other, by several extensions, on several events,
and with any priorities. A hook is put behind all hooks of its priority or a higher one, and this
keeps the hooks of each event in the order that one stable sort of all registrations would bring
them into. Step rules stay in the order of their registration.

Results:
1. `Hook.Ordered.unique`: there is one order by descending priority, then by registration.
2. `Hook.Ordered.insert`: putting a hook in its place keeps that order.
3. `Interface.registered_after`: what is registered by the calls of extensions.
4. `Interface.hooks_called_by_priority_then_registration`: which hooks are called on an event, and
   in which order.
-/

namespace Whitespace

variable {Notes : Type}

/-! ## Orders of hooks -/

namespace Hook

/-- `Ordered registered order`: the hooks that were registered one after the other, in the order in
which they are called: by descending priority, and as they were registered among equal ones. -/
structure Ordered (registered order : List (Hook Notes)) : Prop where
  descending : order.Pairwise fun a b => b.priority ≤ a.priority
  stable : ∀ priority : Int, order.filter (fun hook => hook.priority = priority) =
    registered.filter fun hook => hook.priority = priority

/-- The hooks sorted by descending priority, which leaves those of equal priority as they are. -/
def sorted (hooks : List (Hook Notes)) : List (Hook Notes) :=
  hooks.mergeSort fun a b => b.priority ≤ a.priority

namespace Ordered

variable {registered order order' : List (Hook Notes)}

theorem nil : Ordered ([] : List (Hook Notes)) [] :=
  ⟨.nil, fun _ => rfl⟩

/-- The first of some hooks is among those that have the same hooks of each priority. -/
theorem head_mem {hook : Hook Notes} {hooks : List (Hook Notes)}
    (same : ∀ priority : Int, (hook :: hooks).filter (fun h => h.priority = priority) =
      order.filter fun h => h.priority = priority) : hook ∈ order := by
  have member : hook ∈ (hook :: hooks).filter fun h => h.priority = hook.priority := by simp
  rw [same] at member
  exact List.mem_of_mem_filter member

/-- The first hook has the highest priority. -/
theorem priority_le_head {hook other : Hook Notes} {hooks : List (Hook Notes)}
    (descending : (hook :: hooks).Pairwise fun a b => b.priority ≤ a.priority)
    (member : other ∈ hook :: hooks) : other.priority ≤ hook.priority := by
  rcases List.mem_cons.mp member with rfl | behind
  · exact Int.le_refl _
  · exact List.rel_of_pairwise_cons descending behind

/-- Hooks have one order. -/
theorem unique (h : Ordered registered order) (h' : Ordered registered order') :
    order = order' := by
  have same (priority : Int) := (h.stable priority).trans (h'.stable priority).symm
  have sorted := h.descending
  have sorted' := h'.descending
  clear h h'
  induction order generalizing order' with
  | nil =>
    cases order' with
    | nil => rfl
    | cons hook' order' => exact absurd (head_mem fun priority => (same priority).symm) nofun
  | cons hook order ih =>
    cases order' with
    | nil => exact absurd (head_mem same) nofun
    | cons hook' order' =>
      -- Neither of the first hooks has a higher priority than the other, so both are the first of
      -- one priority.
      have le := priority_le_head sorted (head_mem fun priority => (same priority).symm)
      have ge := priority_le_head sorted' (head_mem same)
      have equal : hook'.priority = hook.priority := Int.le_antisymm le ge
      have first := same hook.priority
      rw [List.filter_cons_of_pos (by simp), List.filter_cons_of_pos (by simp [equal])] at first
      obtain rfl := (List.cons.inj first).1
      refine congrArg (hook :: ·) (ih (fun priority => ?_) sorted.of_cons sorted'.of_cons)
      have rest := same priority
      rw [List.filter_cons, List.filter_cons] at rest
      split at rest
      · exact (List.cons.inj rest).2
      · exact rest

/-- Sorting brings hooks into their order. -/
theorem sorted (registered : List (Hook Notes)) : Ordered registered (sorted registered) := by
  have trans (a b c : Hook Notes) (hab : decide (b.priority ≤ a.priority) = true)
      (hbc : decide (c.priority ≤ b.priority) = true) :
      decide (c.priority ≤ a.priority) = true := by
    rw [decide_eq_true_eq] at hab hbc ⊢
    exact Int.le_trans hbc hab
  have total (a b : Hook Notes) :
      (decide (b.priority ≤ a.priority) || decide (a.priority ≤ b.priority)) = true := by
    rw [Bool.or_eq_true, decide_eq_true_eq, decide_eq_true_eq]
    exact Int.le_total ..
  refine ⟨?_, fun priority => ?_⟩
  · exact (List.pairwise_mergeSort trans total registered).imp fun h => of_decide_eq_true h
  · -- Those of one priority are sorted as they are, so sorting keeps them in their order.
    have equal : (registered.filter fun hook => hook.priority = priority).Pairwise
        fun a b => decide (b.priority ≤ a.priority) = true := by
      refine List.pairwise_iff_forall_sublist.mpr fun {a b} pair => ?_
      have ha := List.of_mem_filter (pair.subset List.mem_cons_self)
      have hb := List.of_mem_filter (pair.subset (List.mem_cons_of_mem a List.mem_cons_self))
      rw [decide_eq_true_eq] at ha hb ⊢
      omega
    have kept := (List.sublist_mergeSort trans total equal List.filter_sublist).filter
      fun hook => decide (hook.priority = priority)
    simp only [List.filter_filter, Bool.and_self] at kept
    refine (kept.eq_of_length ?_).symm
    exact ((List.mergeSort_perm registered _).filter _).length_eq.symm

theorem eq_sorted (h : Ordered registered order) : order = Hook.sorted registered :=
  h.unique (sorted registered)

theorem perm (h : Ordered registered order) : order.Perm registered := by
  rw [h.eq_sorted]
  exact List.mergeSort_perm registered _

/-- The place of a hook: behind all hooks of its priority or a higher one. -/
theorem exists_place (hook : Hook Notes)
    (descending : order.Pairwise fun a b => b.priority ≤ a.priority) :
    ∃ before behind, order = before ++ behind ∧ hook.insert order = before ++ hook :: behind ∧
      (∀ other ∈ before, hook.priority ≤ other.priority) ∧
      ∀ other ∈ behind, other.priority < hook.priority := by
  induction order with
  | nil => exact ⟨[], [], rfl, rfl, List.forall_mem_nil _, List.forall_mem_nil _⟩
  | cons first order ih =>
    by_cases le : hook.priority ≤ first.priority
    · obtain ⟨before, behind, split, inserted, above, below⟩ := ih descending.of_cons
      refine ⟨first :: before, behind, congrArg _ split, ?_, List.forall_mem_cons.mpr ⟨le, above⟩,
        below⟩
      rw [Hook.insert, if_pos le, inserted, List.cons_append]
    · refine ⟨[], first :: order, rfl, if_neg le, List.forall_mem_nil _, fun other member => ?_⟩
      exact Int.lt_of_le_of_lt (priority_le_head descending member) (Int.not_le.mp le)

/-- Hooks in their order stay there when one more is put in its place. -/
theorem insert (h : Ordered registered order) (hook : Hook Notes) :
    Ordered (registered ++ [hook]) (hook.insert order) := by
  obtain ⟨before, behind, rfl, inserted, above, below⟩ := exists_place hook h.descending
  obtain ⟨sorted, sorted', across⟩ := List.pairwise_append.mp h.descending
  rw [inserted]
  refine ⟨?_, fun priority => ?_⟩
  · refine List.pairwise_append.mpr ⟨sorted, List.pairwise_cons.mpr ⟨?_, sorted'⟩, ?_⟩
    · exact fun other member => Int.le_of_lt (below other member)
    · intro a ha b hb
      rcases List.mem_cons.mp hb with rfl | hb
      · exact above a ha
      · exact across a ha b hb
  · have stable := h.stable priority
    rw [List.filter_append] at stable
    rw [List.filter_append, List.filter_append, ← stable, List.append_assoc]
    refine congrArg _ ?_
    by_cases equal : hook.priority = priority
    · -- No hook behind the new one has its priority.
      have none : behind.filter (fun other => other.priority = priority) = [] := by
        refine List.filter_eq_nil_iff.mpr fun other member => ?_
        have lower := below other member
        rw [decide_eq_true_eq]
        omega
      rw [List.filter_cons_of_pos (by simpa using equal), none,
        List.filter_cons_of_pos (by simpa using equal)]
      rfl
    · rw [List.filter_cons_of_neg (by simpa using equal),
        List.filter_cons_of_neg (by simpa using equal), List.filter_nil, List.append_nil]

/-- The hooks on one event are in the order in which all hooks are. -/
theorem on (h : Ordered registered order) (event : String) :
    Ordered (registered.filter fun hook => hook.event = event)
      (order.filter fun hook => hook.event = event) := by
  refine ⟨h.descending.filter _, fun priority => ?_⟩
  rw [List.filter_comm, h.stable, List.filter_comm]

/-- Sorting again when a hook was put behind all others brings it to its place. -/
theorem resort (h : Ordered registered order) (hook : Hook Notes) :
    Ordered (registered ++ [hook]) (Hook.sorted (order ++ [hook])) := by
  have again := sorted (order ++ [hook])
  refine ⟨again.descending, fun priority => ?_⟩
  rw [again.stable, List.filter_append, List.filter_append, h.stable]

/-- Sorting anew after each registration leads to the order. -/
theorem foldl_resort (registered : List (Hook Notes)) :
    Ordered registered (registered.foldl (fun order hook => Hook.sorted (order ++ [hook])) []) := by
  induction registered using List.reverseRecOn with
  | nil => exact .nil
  | append_singleton registered hook ih =>
    rw [List.foldl_append]
    exact ih.resort hook

end Ordered

/-- All hooks are called if none raises. -/
theorem Calls.eq_of_silent {event : Event} {hooks called : List (Hook Notes)} {notes notes' : Notes}
    {raised : Option Raised} (h : Calls event hooks notes called notes' raised)
    (silent : raised = none) : called = hooks := by
  induction h with
  | done => rfl
  | raises => cases silent
  | passes _ _ ih => rw [ih silent]

end Hook

/-! ## Subscriptions -/

/-- An observer of a run. -/
inductive Observer (Notes : Type) where
  | hook (h : Hook Notes)
  | rule (r : StepRule Notes)

namespace Observer

def hook? : Observer Notes → Option (Hook Notes)
  | .hook h => some h
  | .rule _ => none

def rule? : Observer Notes → Option (StepRule Notes)
  | .hook _ => none
  | .rule r => some r

end Observer

namespace Subscription

def hook? (s : Subscription) (handler : Handler Notes) : Option (Hook Notes) :=
  match s.occasion with
  | .event name priority =>
    some ⟨name, priority, handler.name.toOption.getD "", s.owner, handler.onEvent⟩
  | .steps .. => none

/-- `s.Grants handler observer`: a handler is registered, as this observer. On steps, the interval is
positive, and the name is the one that was given, or else the handler's own. -/
inductive Grants : Subscription → Handler Notes → Observer Notes → Prop
  | event {name owner : String} {priority : Int} {handler : Handler Notes} :
      Grants ⟨.event name priority, owner⟩ handler
        (.hook ⟨name, priority, handler.name.toOption.getD "", owner, handler.onEvent⟩)
  | named {every : Int} {name owner : String} {wantsHeap : Bool} {handler : Handler Notes}
      (given : name ≠ "") (positive : 1 ≤ every) :
      Grants ⟨.steps every name wantsHeap, owner⟩ handler
        (.rule ⟨every, name, owner, wantsHeap, .react handler.onStep⟩)
  | unnamed {every : Int} {name owner : String} {wantsHeap : Bool} {handler : Handler Notes}
      (own : handler.name = .ok name) (positive : 1 ≤ every) :
      Grants ⟨.steps every "" wantsHeap, owner⟩ handler
        (.rule ⟨every, name, owner, wantsHeap, .react handler.onStep⟩)

/-- `s.Refuses handler failure`: a handler is not registered, and this is raised. There is no name
for the step rule, or there is one, but the interval is below one. -/
inductive Refuses : Subscription → Handler Notes → Failure → Prop
  | nameless {every : Int} {owner : String} {wantsHeap : Bool} {handler : Handler Notes}
      {notice : Notice} (nameless : handler.name = .error notice) :
      Refuses ⟨.steps every "" wantsHeap, owner⟩ handler ⟨.other, notice⟩
  | below {every : Int} {name owner : String} {wantsHeap : Bool} {handler : Handler Notes}
      (named : name ≠ "" ∨ ∃ own, handler.name = .ok own) (below : every < 1) :
      Refuses ⟨.steps every name wantsHeap, owner⟩ handler .badInterval

variable {s : Subscription} {handler : Handler Notes} {observer : Observer Notes}
  {failure : Failure}

theorem grants_or_refuses (s : Subscription) (handler : Handler Notes) :
    (∃ observer, s.Grants handler observer) ∨ ∃ failure, s.Refuses handler failure := by
  obtain ⟨⟨name, priority⟩ | ⟨every, name, wantsHeap⟩, owner⟩ := s
  · exact .inl ⟨_, .event⟩
  by_cases positive : 1 ≤ every
  · by_cases empty : name = ""
    · subst empty
      cases own : handler.name with
      | ok name => exact .inl ⟨_, .unnamed own positive⟩
      | error notice => exact .inr ⟨_, .nameless own⟩
    · exact .inl ⟨_, .named empty positive⟩
  · by_cases empty : name = ""
    · subst empty
      cases own : handler.name with
      | ok name => exact .inr ⟨_, .below (.inr ⟨name, own⟩) (Int.not_le.mp positive)⟩
      | error notice => exact .inr ⟨_, .nameless own⟩
    · exact .inr ⟨_, .below (.inl empty) (Int.not_le.mp positive)⟩

theorem Grants.hook?_eq (h : s.Grants handler observer) : s.hook? handler = observer.hook? := by
  cases h <;> rfl

theorem Refuses.hook?_eq (h : s.Refuses handler failure) : s.hook? handler = none := by
  cases h <;> rfl

end Subscription

/-! ## Registries -/

/-- `r.Registered hooks rules`: the registry holds the hooks that were registered, in the order in
which they are called, and the step rules as they were registered. -/
structure Registry.Registered (r : Registry Notes) (hooks : List (Hook Notes))
    (rules : List (StepRule Notes)) : Prop where
  hooks : Hook.Ordered hooks r.hooks
  rules : r.rules = rules

namespace Registry

def add (r : Registry Notes) : Observer Notes → Registry Notes
  | .hook hook => r.addHook hook
  | .rule rule => { r with rules := r.rules ++ [rule] }

variable {r r' : Registry Notes} {hooks : List (Hook Notes)} {rules : List (StepRule Notes)}
  {s : Subscription} {handler : Handler Notes} {observer : Observer Notes} {failure : Failure}

theorem registered_builtin (debug debugHeap : Bool) :
    (builtin debug debugHeap : Registry Notes).Registered []
      (builtin debug debugHeap : Registry Notes).rules :=
  ⟨.nil, rfl⟩

theorem Registered.add (h : r.Registered hooks rules) (observer : Observer Notes) :
    (r.add observer).Registered (hooks ++ observer.hook?.toList)
      (rules ++ observer.rule?.toList) := by
  cases observer with
  | hook hook =>
    refine ⟨h.hooks.insert hook, ?_⟩
    rw [Observer.rule?, Option.toList_none, List.append_nil]
    exact h.rules
  | rule rule =>
    refine ⟨?_, ?_⟩
    · rw [Observer.hook?, Option.toList_none, List.append_nil]
      exact h.hooks
    · rw [Registry.add, h.rules]
      rfl

theorem subscribe_of_grants (h : s.Grants handler observer) (r : Registry Notes) :
    r.subscribe s handler = .ok (r.add observer) := by
  cases h with
  | event => rfl
  | named given positive =>
    simp only [subscribe, Handler.ruleName, given, ↓reduceIte, addRule?, positive, add]
  | unnamed own positive =>
    simp only [subscribe, Handler.ruleName, own, Except.mapError, ↓reduceIte, addRule?, positive,
      add]

theorem subscribe_of_refuses (h : s.Refuses handler failure) (r : Registry Notes) :
    r.subscribe s handler = .error failure := by
  cases h with
  | nameless nameless =>
    simp only [subscribe, Handler.ruleName, nameless, ↓reduceIte, Except.mapError]
  | @below every name _ _ _ named below =>
    have negative : ¬1 ≤ every := Int.not_le.mpr below
    by_cases empty : name = ""
    · obtain ⟨own, own_eq⟩ := named.resolve_left fun given => given empty
      simp only [subscribe, Handler.ruleName, empty, own_eq, ↓reduceIte, Except.mapError, addRule?,
        negative]
    · simp only [subscribe, Handler.ruleName, empty, ↓reduceIte, addRule?, negative]

end Registry

/-! ## The interface of extensions -/

namespace Request

/-- The handler that a request asks to be registered, and what for, with the decorators that were
given out before. -/
def subscription? (owner : String) (decorators : List Subscription) :
    Request Notes → Option (Subscription × Handler Notes)
  | .subscribe occasion handler => handler.map (⟨occasion, owner⟩, ·)
  | .decorate number handler => decorators[number]?.map (·, handler)

def hook? (owner : String) (decorators : List Subscription) (request : Request Notes) :
    Option (Hook Notes) :=
  (request.subscription? owner decorators).bind fun (s, handler) => s.hook? handler

def decorators (owner : String) (decorators : List Subscription) : Request Notes → List Subscription
  | .subscribe occasion none => decorators ++ [⟨occasion, owner⟩]
  | _ => decorators

end Request

namespace Interface

structure Call (Notes : Type) where
  owner : String
  request : Request Notes

/-- The interface after some calls, which go on when one of them has raised. -/
def after (s : Interface Notes) (calls : List (Call Notes)) : Interface Notes :=
  calls.foldl (fun s c => (s.ask c.owner c.request).1) s

/-- The interface of a run before any extension has called it. -/
def start (debug debugHeap : Bool) : Interface Notes :=
  ⟨.builtin debug debugHeap, []⟩

/-- The hooks that calls register, one after the other, with the decorators that were given out
before. -/
def hooksOf (decorators : List Subscription) : List (Call Notes) → List (Hook Notes)
  | [] => []
  | ⟨owner, request⟩ :: calls =>
    (request.hook? owner decorators).toList ++
      hooksOf (request.decorators owner decorators) calls

/-- The hooks that calls register on an event, one after the other. -/
def hooksFor (event : String) (calls : List (Call Notes)) : List (Hook Notes) :=
  (hooksOf [] calls).filter fun hook => hook.event = event

variable {s : Interface Notes} {hooks : List (Hook Notes)} {rules : List (StepRule Notes)}
  {subscription : Subscription} {handler : Handler Notes}

theorem ask_of_subscription {owner : String} {request : Request Notes}
    (asks : request.subscription? owner s.decorators = some (subscription, handler)) :
    s.ask owner request = s.register subscription handler ∧
      request.decorators owner s.decorators = s.decorators := by
  cases request with
  | subscribe occasion given =>
    cases given with
    | none => cases asks
    | some given =>
      cases asks
      exact ⟨rfl, rfl⟩
  | decorate number given =>
    obtain ⟨found, held, same⟩ := Option.map_eq_some_iff.mp asks
    cases same
    simp only [ask, held, Request.decorators, and_self]

theorem ask_of_none {owner : String} {request : Request Notes}
    (asks : request.subscription? owner s.decorators = none) :
    s.ask owner request = (⟨s.registry, request.decorators owner s.decorators⟩, none) := by
  cases request with
  | subscribe occasion given =>
    cases given with
    | none => rfl
    | some given => cases asks
  | decorate number given =>
    simp only [ask, Option.map_eq_none_iff.mp asks, Request.decorators]

theorem register_of_grants {observer : Observer Notes} (h : subscription.Grants handler observer)
    (s : Interface Notes) :
    s.register subscription handler = (⟨s.registry.add observer, s.decorators⟩, none) := by
  simp only [register, Registry.subscribe_of_grants h]

theorem register_of_refuses {failure : Failure} (h : subscription.Refuses handler failure)
    (s : Interface Notes) : s.register subscription handler = (s, some failure) := by
  simp only [register, Registry.subscribe_of_refuses h]

/-- What comes of a request: its handler is registered or refused, or there is none to register
yet. -/
theorem ask_cases (s : Interface Notes) (owner : String) (request : Request Notes) :
    (∃ subscription handler observer,
      request.subscription? owner s.decorators = some (subscription, handler) ∧
        subscription.Grants handler observer ∧
        s.ask owner request = (⟨s.registry.add observer, s.decorators⟩, none)) ∨
    (∃ subscription handler failure,
      request.subscription? owner s.decorators = some (subscription, handler) ∧
        subscription.Refuses handler failure ∧ s.ask owner request = (s, some failure)) ∨
    (request.subscription? owner s.decorators = none ∧
      s.ask owner request = (⟨s.registry, request.decorators owner s.decorators⟩, none)) := by
  cases asks : request.subscription? owner s.decorators with
  | none => exact .inr (.inr ⟨rfl, ask_of_none asks⟩)
  | some asked =>
    obtain ⟨subscription, handler⟩ := asked
    have registers := (ask_of_subscription asks).1
    obtain ⟨observer, grants⟩ | ⟨failure, refuses⟩ := subscription.grants_or_refuses handler
    · rw [register_of_grants grants] at registers
      exact .inl ⟨_, _, _, rfl, grants, registers⟩
    · rw [register_of_refuses refuses] at registers
      exact .inr (.inl ⟨_, _, _, rfl, refuses, registers⟩)

/-- A call registers a handler behind what is registered already, or registers nothing. -/
theorem registered_call (h : s.registry.Registered hooks rules) (c : Call Notes) :
    ∃ more, (s.ask c.owner c.request).1.registry.Registered
        (hooks ++ (c.request.hook? c.owner s.decorators).toList) more ∧
      (s.ask c.owner c.request).1.decorators = c.request.decorators c.owner s.decorators := by
  rw [Request.hook?]
  obtain ⟨subscription, handler, observer, asks, grants, same⟩ |
    ⟨subscription, handler, failure, asks, refuses, same⟩ | ⟨asks, same⟩ :=
      s.ask_cases c.owner c.request
  · simp only [same, asks, (ask_of_subscription asks).2, Option.bind_some, grants.hook?_eq]
    exact ⟨_, h.add observer, trivial⟩
  · simp only [same, asks, (ask_of_subscription asks).2, Option.bind_some, refuses.hook?_eq,
      Option.toList_none, List.append_nil]
    exact ⟨rules, h, trivial⟩
  · simp only [same, asks, Option.bind_none, Option.toList_none, List.append_nil]
    exact ⟨rules, h, trivial⟩

/-- The hooks that are registered after some calls. -/
theorem registered_after (h : s.registry.Registered hooks rules) (calls : List (Call Notes)) :
    ∃ more, (s.after calls).registry.Registered (hooks ++ hooksOf s.decorators calls) more := by
  induction calls generalizing s hooks rules with
  | nil =>
    rw [hooksOf, List.append_nil]
    exact ⟨rules, h⟩
  | cons call calls ih =>
    obtain ⟨more, registered, decorators⟩ := registered_call h call
    have rest := ih registered
    rw [decorators, List.append_assoc] at rest
    exact rest

/-- The order in which hooks are called. Whatever extensions have registered, for whatever events,
the hooks on an event are those registered for it, once for each registration, by descending
priority, and as they were registered among equal ones. So they are in the order of one stable sort,
and in that of sorting anew after each registration. When the event is emitted they are called in
this order, all of them unless one raises. -/
theorem hooks_called_by_priority_then_registration (debug debugHeap : Bool)
    (calls : List (Call Notes)) (event : Event) :
    ∃ r order, r = ((start debug debugHeap).after calls).registry ∧
      order = r.hooksOn event.name ∧
      Hook.Ordered (hooksFor event.name calls) order ∧
      order.Perm (hooksFor event.name calls) ∧
      order = Hook.sorted (hooksFor event.name calls) ∧
      order = (hooksFor event.name calls).foldl
        (fun order hook => Hook.sorted (order ++ [hook])) [] ∧
      ∀ journal, ∃ called notes raised,
        Hook.Calls event order journal.notes called notes raised ∧
        r.emit event journal = (⟨journal.trace, notes⟩, raised) ∧
        r.recorded.emit event (journal.recorded []) =
          (Journal.recorded ⟨journal.trace, notes⟩ (called.map (·, event)), raised) ∧
        (raised = none → called = order) := by
  obtain ⟨rules, registered⟩ := registered_after (s := start debug debugHeap)
    (Registry.registered_builtin debug debugHeap) calls
  have ordered : Hook.Ordered (hooksFor event.name calls) _ := registered.hooks.on event.name
  refine ⟨_, _, rfl, rfl, ordered, ordered.perm, ordered.eq_sorted,
    ordered.unique (.foldl_resort _), fun journal => ?_⟩
  obtain ⟨called, notes, raised, emitted⟩ := Hook.exists_calls event
    (((start debug debugHeap).after calls).registry.hooksOn event.name) journal.notes
  have emits := Registry.Emits.intro emitted
  exact ⟨called, notes, raised, emitted, emits.emit, emits.emit_recorded [],
    emitted.eq_of_silent⟩

/-- A decorator registers its handler when it is put on it, not when it is given out. -/
example :
    let handler (name : String) : Handler Unit := { name := .ok name }
    let calls : List (Call Unit) := [
      ⟨"a", .subscribe (.event "on_error" (-1)) (some (handler "last"))⟩,
      ⟨"a", .subscribe (.event "on_error" 5) none⟩,
      ⟨"b", .subscribe (.event "on_error" 5) (some (handler "first"))⟩,
      ⟨"a", .decorate 0 (handler "second")⟩,
      ⟨"b", .subscribe (.event "program_end" 9) (some (handler "other"))⟩]
    ((((start false false).after calls).registry.hooksOn "on_error").map Hook.name) =
      ["first", "second", "last"] := by
  decide

end Interface

end Whitespace
