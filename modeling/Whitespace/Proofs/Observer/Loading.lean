import Whitespace.Proofs.Observer.Registration

/-!
# Loading in order

Extensions are loaded in the order of their paths. Each registers what it asks for under its own
name, behind the tracer and the extensions before it. The first path that is refused ends the
loading, whatever stands behind it. A path is refused, too, if loading the module raises something,
or its registration does; this is passed on as it is.

Results:
1. `Extension.named_iff`: the name under which an extension registers.
2. `Registration.Registers.carryOut`: the observers that a registration adds, and what it raises.
3. `Folder.provides_or_refuses`: what is found at a path is loaded or refused.
4. `Folder.Provides.loadExtension`, `Folder.Refuses.loadExtension`: what loading comes to.
5. `Folder.loadObservers_error_iff`: loading fails at the first path that is refused.
6. `Folder.extensions_load_in_order`: the observers of several extensions, and the first error.
-/

namespace Whitespace

variable {Notes : Type}

/-! ## Names -/

namespace Path

variable {base : String} {name suffix : List Char}

theorem exists_first_letter (named : ∃ c ∈ name, c ≠ '.') :
    ∃ dots first more, name = dots ++ first :: more ∧ (∀ c ∈ dots, c = '.') ∧ first ≠ '.' := by
  induction name with
  | nil =>
    obtain ⟨c, member, -⟩ := named
    cases member
  | cons first more ih =>
    by_cases dot : first = '.'
    · obtain ⟨dots, letter, rest, rfl, all, ne⟩ := ih (by simpa [dot] using named)
      exact ⟨first :: dots, letter, rest, rfl, List.forall_mem_cons.mpr ⟨dot, all⟩, ne⟩
    · exact ⟨[], first, more, rfl, List.forall_mem_nil _, dot⟩

/-- The suffix of a name starts at its last dot. -/
theorem stem_of_suffix (split : base.toList = name ++ '.' :: suffix) (last : '.' ∉ suffix)
    (named : ∃ c ∈ name, c ≠ '.') : stem base = String.ofList name := by
  obtain ⟨dots, first, more, rfl, all, letter⟩ := exists_first_letter named
  rw [List.append_assoc, List.cons_append] at split
  have start : base.toList.takeWhile (· = '.') = dots := by
    rw [split, List.takeWhile_append_of_pos (by simpa using all),
      List.takeWhile_cons_of_neg (by simpa using letter), List.append_nil]
  have rest : base.toList.dropWhile (· = '.') = (first :: more) ++ '.' :: suffix := by
    rw [split, List.dropWhile_append_of_pos (by simpa using all),
      List.dropWhile_cons_of_neg (by simpa using letter), List.cons_append]
  have noDot : ∀ c ∈ suffix.reverse, decide (c ≠ '.') = true := by
    intro c member
    rw [decide_eq_true_eq]
    rintro rfl
    exact last (List.mem_reverse.mp member)
  have dotted : ((first :: more) ++ '.' :: suffix).contains '.' = true := by simp
  simp only [stem, start, rest, dotted, ↓reduceIte]
  rw [List.reverse_append, List.reverse_cons, List.append_assoc, List.dropWhile_append_of_pos noDot,
    List.singleton_append, List.dropWhile_cons_of_neg (by simp), List.drop_one, List.tail_cons,
    List.reverse_reverse]

/-- A name without a suffix stays as it is. -/
theorem stem_of_bare
    (bare : ∀ name suffix, base.toList = name ++ '.' :: suffix → '.' ∉ suffix →
      ∀ c ∈ name, c = '.') : stem base = base := by
  have noDot : (base.toList.dropWhile (· = '.')).contains '.' = false := by
    rw [← Bool.not_eq_true, List.contains_iff_mem]
    intro dot
    -- The part behind the last dot is a suffix, so only dots come before it.
    obtain ⟨after, before, split, last⟩ := List.eq_append_cons_of_mem (List.mem_reverse.mpr dot)
    have rest : base.toList.dropWhile (· = '.') = before.reverse ++ '.' :: after.reverse := by
      rw [List.reverse_eq_iff.mp split, List.reverse_append, List.reverse_cons, List.append_assoc,
        List.singleton_append]
    have whole : base.toList =
        (base.toList.takeWhile (· = '.') ++ before.reverse) ++ '.' :: after.reverse := by
      rw [List.append_assoc, ← rest, List.takeWhile_append_dropWhile]
    have dots := (List.forall_mem_append.mp (bare _ _ whole (by simpa using last))).2
    have first := List.head?_dropWhile_not (· = '.') base.toList
    rw [rest] at first
    cases reversed : before.reverse with
    | nil => simp [reversed] at first
    | cons c more =>
      have dot : c = '.' := dots c (by simp [reversed])
      simp [reversed, dot] at first
  simp only [stem, noDot, Bool.false_eq_true, ↓reduceIte]

end Path

namespace Extension

/-- `x.Named path name`: the name under which an extension of a path registers its observers. It is
the one that the extension declares, or else the base name of the path without its suffix. Dots that
a base name starts with begin no suffix. -/
inductive Named (x : Extension Notes) (path : String) : String → Prop
  | declared {setting : Setting} (declares : x.name = some setting) : Named x path setting.shown
  | file {name suffix : List Char} (undeclared : x.name = none)
      (base : (Path.baseName path).toList = name ++ '.' :: suffix) (last : '.' ∉ suffix)
      (named : ∃ c ∈ name, c ≠ '.') : Named x path (String.ofList name)
  | bare (undeclared : x.name = none)
      (bare : ∀ name suffix, (Path.baseName path).toList = name ++ '.' :: suffix → '.' ∉ suffix →
        ∀ c ∈ name, c = '.') : Named x path (Path.baseName path)

variable {x : Extension Notes} {path name : String}

theorem named_iff : x.Named path name ↔ name = x.owner path := by
  constructor
  · intro h
    unfold owner
    cases h with
    | declared declares => rw [declares]
    | file undeclared base last named =>
      rw [undeclared]
      exact (Path.stem_of_suffix base last named).symm
    | bare undeclared bare =>
      rw [undeclared]
      exact (Path.stem_of_bare bare).symm
  · rintro rfl
    unfold owner
    cases declares : x.name with
    | some setting => exact .declared declares
    | none =>
      by_cases bare : ∀ name suffix, (Path.baseName path).toList = name ++ '.' :: suffix →
          '.' ∉ suffix → ∀ c ∈ name, c = '.'
      · rw [Path.stem_of_bare bare]
        exact .bare declares bare
      · push Not at bare
        obtain ⟨name, suffix, base, last, named⟩ := bare
        rw [Path.stem_of_suffix base last named]
        exact .file declares base last named

end Extension

/-! ## Registrations -/

/-- `registration.Registers owner given observers ending`: under this name, and with these decorators
given out before, the registration adds these observers, one after the other, and ends by raising
something or not. A request that is refused adds nothing, and the registration goes on by what was
raised. -/
inductive Registration.Registers (owner : String) :
    List Subscription → Registration Notes → List (Observer Notes) → Option Failure → Prop
  | done {given : List Subscription} : Registers owner given .done [] none
  | raises {given : List Subscription} {failure : Failure} :
      Registers owner given (.raises failure) [] (some failure)
  | granted {given : List Subscription} {request : Request Notes}
      {next : Option Failure → Registration Notes} {s : Subscription} {handler : Handler Notes}
      {observer : Observer Notes} {observers : List (Observer Notes)} {ending : Option Failure}
      (asks : request.subscription? owner given = some (s, handler))
      (grants : s.Grants handler observer)
      (rest : Registers owner given (next none) observers ending) :
      Registers owner given (.asks request next) (observer :: observers) ending
  | refused {given : List Subscription} {request : Request Notes}
      {next : Option Failure → Registration Notes} {s : Subscription} {handler : Handler Notes}
      {failure : Failure} {observers : List (Observer Notes)} {ending : Option Failure}
      (asks : request.subscription? owner given = some (s, handler))
      (refuses : s.Refuses handler failure)
      (rest : Registers owner given (next (some failure)) observers ending) :
      Registers owner given (.asks request next) observers ending
  | postponed {given : List Subscription} {request : Request Notes}
      {next : Option Failure → Registration Notes} {observers : List (Observer Notes)}
      {ending : Option Failure} (asks : request.subscription? owner given = none)
      (rest : Registers owner (request.decorators owner given) (next none) observers ending) :
      Registers owner given (.asks request next) observers ending

namespace Registration

variable {owner : String} {given : List Subscription} {registration : Registration Notes}
  {observers : List (Observer Notes)} {ending : Option Failure}

theorem exists_registers (owner : String) (given : List Subscription)
    (registration : Registration Notes) :
    ∃ observers ending, registration.Registers owner given observers ending := by
  induction registration generalizing given with
  | done => exact ⟨_, _, .done⟩
  | raises failure => exact ⟨_, _, .raises⟩
  | asks request next ih =>
    cases asks : request.subscription? owner given with
    | none =>
      obtain ⟨observers, ending, rest⟩ := ih none (request.decorators owner given)
      exact ⟨_, _, .postponed asks rest⟩
    | some asked =>
      obtain ⟨s, handler⟩ := asked
      obtain ⟨observer, grants⟩ | ⟨failure, refuses⟩ := s.grants_or_refuses handler
      · obtain ⟨observers, ending, rest⟩ := ih none given
        exact ⟨_, _, .granted asks grants rest⟩
      · obtain ⟨observers, ending, rest⟩ := ih (some failure) given
        exact ⟨_, _, .refused asks refuses rest⟩

/-- A registration adds its observers in their order, unless it raises something at its end. -/
theorem Registers.carryOut (h : registration.Registers owner given observers ending)
    (r : Registry Notes) :
    registration.carryOut owner ⟨r, given⟩ =
      ending.elim (.ok (observers.foldl Registry.add r)) .error := by
  induction h generalizing r with
  | done | raises => rfl
  | granted asks grants _ ih =>
    rw [Registration.carryOut, (Interface.ask_of_subscription asks).1,
      Interface.register_of_grants grants]
    exact ih _
  | refused asks refuses _ ih =>
    rw [Registration.carryOut, (Interface.ask_of_subscription asks).1,
      Interface.register_of_refuses refuses]
    exact ih r
  | postponed asks _ ih =>
    rw [Registration.carryOut, Interface.ask_of_none asks]
    exact ih r

end Registration

theorem Registry.Registered.addAll {r : Registry Notes} {hooks : List (Hook Notes)}
    {rules : List (StepRule Notes)} (h : r.Registered hooks rules)
    (observers : List (Observer Notes)) :
    (observers.foldl Registry.add r).Registered (hooks ++ observers.filterMap Observer.hook?)
      (rules ++ observers.filterMap Observer.rule?) := by
  induction observers generalizing r hooks rules with
  | nil =>
    rw [List.filterMap_nil, List.filterMap_nil, List.append_nil, List.append_nil]
    exact h
  | cons observer observers ih =>
    have registered := ih (h.add observer)
    rw [List.append_assoc, List.append_assoc] at registered
    cases observer <;> exact registered

/-! ## What is found at a path -/

/-- The extension declares no version of the interface, or the one of its host. -/
def Extension.IsCurrent (x : Extension Notes) : Prop :=
  ∀ version, x.version = some version → version.equals hostVersion = true

theorem Extension.IsCurrent.filter_eq {x : Extension Notes} (current : x.IsCurrent) :
    x.version.filter (fun version => !version.equals hostVersion) = none := by
  refine Option.filter_eq_none_iff.mpr fun version declares => ?_
  rw [current version declares]
  nofun

namespace Folder

/-- What stands at an absolute path is loaded as an extension, after so many others. -/
structure Loads (f : Folder Notes) (place : String × Nat) (x : Extension Notes) : Prop where
  found : ∃ entry, f.find place.1 = .ok entry
  loads : f.load place.1 place.2 = .extension x

/-- `f.Provides place observers`: an extension can be loaded there, after so many others, and
registers these observers, one after the other. -/
inductive Provides (f : Folder Notes) (place : String × Nat) : List (Observer Notes) → Prop
  | intro {x : Extension Notes} {owner : String} {registration : Registration Notes}
      {observers : List (Observer Notes)} (loads : f.Loads place x) (current : x.IsCurrent)
      (defines : x.registration = some registration) (named : x.Named place.1 owner)
      (registers : registration.Registers owner [] observers none) : Provides f place observers

/-- `f.Refuses place error`: no extension can be loaded there, after so many others, for this reason.
Nothing stands there; or what does is not a module, or raises something when it is loaded as one; or
there is an extension, but it was made for another version of the interface, or does not define how
its observers are registered, or its registration raises something. -/
inductive Refuses (f : Folder Notes) (place : String × Nat) : LoadError → Prop
  | missing {error : FileError} (lost : f.find place.1 = .error error) :
      Refuses f place (.notFound place.1)
  | notLoadable {entry : Entry} (found : f.find place.1 = .ok entry)
      (noModule : f.load place.1 place.2 = .noModule) : Refuses f place (.notLoadable place.1)
  | moduleRaises {entry : Entry} {failure : Failure} (found : f.find place.1 = .ok entry)
      (raises : f.load place.1 place.2 = .raised failure) : Refuses f place (.raised failure)
  | otherVersion {x : Extension Notes} {version : Setting} (loads : f.Loads place x)
      (declares : x.version = some version)
      (differs : version.equals Extension.hostVersion = false) :
      Refuses f place (.otherVersion place.1 version)
  | noRegistration {x : Extension Notes} (loads : f.Loads place x) (current : x.IsCurrent)
      (lacks : x.registration = none) : Refuses f place (.noRegistration place.1)
  | registrationRaises {x : Extension Notes} {owner : String} {registration : Registration Notes}
      {observers : List (Observer Notes)} {failure : Failure} (loads : f.Loads place x)
      (current : x.IsCurrent) (defines : x.registration = some registration)
      (named : x.Named place.1 owner)
      (registers : registration.Registers owner [] observers (some failure)) :
      Refuses f place (.raised failure)

variable {f f' : Folder Notes} {place : String × Nat} {x : Extension Notes}
  {observers : List (Observer Notes)} {e : LoadError} {r : Registry Notes}
  {hooks : List (Hook Notes)} {rules : List (StepRule Notes)}

theorem Loads.loadExtension (h : f.Loads place x) (r : Registry Notes) :
    f.loadExtension r place = x.addTo place.1 r := by
  obtain ⟨⟨entry, found⟩, loads⟩ := h
  simp only [Folder.loadExtension, found, loads]

/-- A registration is carried out under the name of the extension. -/
theorem Loads.carryOut {owner : String} {registration : Registration Notes}
    {ending : Option Failure} (h : f.Loads place x) (current : x.IsCurrent)
    (defines : x.registration = some registration) (named : x.Named place.1 owner)
    (registers : registration.Registers owner [] observers ending) (r : Registry Notes) :
    f.loadExtension r place =
      ending.elim (.ok (observers.foldl Registry.add r)) (.error ∘ .raised) := by
  obtain rfl := Extension.named_iff.mp named
  rw [h.loadExtension]
  simp only [Extension.addTo, current.filter_eq, defines, registers.carryOut]
  cases ending <;> rfl

/-- An extension that can be loaded adds its observers to those that are registered. -/
theorem Provides.loadExtension (h : f.Provides place observers) (r : Registry Notes) :
    f.loadExtension r place = .ok (observers.foldl Registry.add r) := by
  obtain ⟨loads, current, defines, named, registers⟩ := h
  exact loads.carryOut current defines named registers r

/-- A path that is refused fails for this reason, whatever is registered. -/
theorem Refuses.loadExtension (h : f.Refuses place e) (r : Registry Notes) :
    f.loadExtension r place = .error e := by
  cases h with
  | missing lost => simp only [Folder.loadExtension, lost]
  | notLoadable found noModule => simp only [Folder.loadExtension, found, noModule]
  | moduleRaises found raises => simp only [Folder.loadExtension, found, raises]
  | otherVersion loads declares differs =>
    simp only [loads.loadExtension, Extension.addTo, declares, Option.filter_some, differs,
      Bool.not_false, ↓reduceIte]
  | noRegistration loads current lacks =>
    simp only [loads.loadExtension, Extension.addTo, current.filter_eq, lacks]
  | registrationRaises loads current defines named registers =>
    exact loads.carryOut current defines named registers r

/-- What stands at a path can be loaded, or is refused. -/
theorem provides_or_refuses (f : Folder Notes) (place : String × Nat) :
    (∃ observers, f.Provides place observers) ∨ ∃ e, f.Refuses place e := by
  cases found : f.find place.1 with
  | error error => exact .inr ⟨_, .missing found⟩
  | ok entry =>
    cases loaded : f.load place.1 place.2 with
    | noModule => exact .inr ⟨_, .notLoadable found loaded⟩
    | raised failure => exact .inr ⟨_, .moduleRaises found loaded⟩
    | extension x =>
      have loads : f.Loads place x := ⟨⟨entry, found⟩, loaded⟩
      by_cases current : x.IsCurrent
      · cases defines : x.registration with
        | none => exact .inr ⟨_, .noRegistration loads current defines⟩
        | some registration =>
          have named := Extension.named_iff.mpr (rfl : x.owner place.1 = x.owner place.1)
          obtain ⟨observers, _ | failure, registers⟩ :=
            registration.exists_registers (x.owner place.1) []
          · exact .inl ⟨_, .intro loads current defines named registers⟩
          · exact .inr ⟨_, .registrationRaises loads current defines named registers⟩
      · unfold Extension.IsCurrent at current
        push Not at current
        obtain ⟨version, declares, differs⟩ := current
        exact .inr ⟨_, .otherVersion loads declares (Bool.not_eq_true _ ▸ differs)⟩

theorem Provides.not_refuses (h : f.Provides place observers) : ¬f.Refuses place e := by
  intro refuses
  have loaded := h.loadExtension (.builtin false false)
  cases loaded.symm.trans (refuses.loadExtension _)

/-- All that counts is what is found at the path and what comes of loading it. -/
theorem loadExtension_congr (found : f'.find place.1 = f.find place.1)
    (loaded : f'.load place.1 place.2 = f.load place.1 place.2) (r : Registry Notes) :
    f'.loadExtension r place = f.loadExtension r place := by
  unfold Folder.loadExtension
  rw [found, loaded]

/-! ## Several paths -/

variable {places : List (String × Nat)} {paths : List String}
  {offers : List (List (Observer Notes))} {debug debugHeap : Bool}

theorem places_append_cons (f : Folder Notes) (before : List String) (path : String)
    (after : List String) :
    f.places (before ++ path :: after) = f.places before ++
      (Path.absolute f.path path, before.length) ::
        (after.map (Path.absolute f.path)).zipIdx (before.length + 1) := by
  simp only [places, List.map_append, List.map_cons, List.zipIdx_append, List.zipIdx_cons,
    List.length_map, Nat.zero_add]

theorem mapM_id_eq_some_iff {α : Type} {given : List (Option α)} {values : List α} :
    given.mapM id = some values ↔ given = values.map some := by
  induction given generalizing values with
  | nil => cases values <;> simp
  | cons first rest ih =>
    cases first with
    | none => cases values <;> simp
    | some first => cases values <;> simp [← ih, Option.bind_eq_some_iff, and_comm]

theorem loadObservers_some (f : Folder Notes) (paths : List String) (debug debugHeap : Bool) :
    f.loadObservers (paths.map some) debug debugHeap =
      (f.places paths).foldlM f.loadExtension (.builtin debug debugHeap) := by
  unfold loadObservers
  rw [mapM_id_eq_some_iff.mpr rfl]

theorem foldlM_loadExtension_congr
    (same : ∀ place ∈ places, f'.find place.1 = f.find place.1 ∧
      f'.load place.1 place.2 = f.load place.1 place.2) (r : Registry Notes) :
    places.foldlM f'.loadExtension r = places.foldlM f.loadExtension r := by
  induction places generalizing r with
  | nil => rfl
  | cons place places ih =>
    obtain ⟨⟨found, loaded⟩, rest⟩ := List.forall_mem_cons.mp same
    rw [List.foldlM_cons, List.foldlM_cons, loadExtension_congr found loaded]
    exact bind_congr fun r' => ih rest r'

/-- Extensions that can be loaded add their observers one after the other. -/
theorem foldlM_loadExtension (provided : List.Forall₂ f.Provides places offers)
    (r : Registry Notes) :
    places.foldlM f.loadExtension r = .ok (offers.flatten.foldl Registry.add r) := by
  induction provided generalizing r with
  | nil => rfl
  | cons provides _ ih =>
    rw [List.foldlM_cons, provides.loadExtension, List.flatten_cons, List.foldl_append]
    exact ih _

/-- `f.FirstRefuses paths e`: the extensions of some first paths can be loaded, and the path behind
them is refused. -/
inductive FirstRefuses (f : Folder Notes) : List String → LoadError → Prop
  | intro {before : List String} {path : String} {after : List String}
      {offers : List (List (Observer Notes))} {e : LoadError}
      (provided : List.Forall₂ f.Provides (f.places before) offers)
      (refuses : f.Refuses (Path.absolute f.path path, before.length) e) :
      FirstRefuses f (before ++ path :: after) e

/-- All paths can be loaded, or there is a first that is refused. -/
theorem all_provide_or_first_refuses (f : Folder Notes) (paths : List String) :
    (∃ offers, List.Forall₂ f.Provides (f.places paths) offers) ∨ ∃ e, f.FirstRefuses paths e := by
  -- From the end, as the number of a path is that of the paths before it.
  induction paths using List.reverseRecOn with
  | nil => exact .inl ⟨[], .nil⟩
  | append_singleton paths path ih =>
    obtain ⟨offers, provided⟩ | ⟨e, provided, refuses⟩ := ih
    · obtain ⟨observers, provides⟩ | ⟨e, refuses⟩ :=
        f.provides_or_refuses (Path.absolute f.path path, paths.length)
      · refine .inl ⟨offers ++ [observers], ?_⟩
        rw [places_append_cons]
        exact List.rel_append provided (.cons provides .nil)
      · exact .inr ⟨e, .intro provided refuses⟩
    · rw [List.append_assoc]
      exact .inr ⟨e, .intro provided refuses⟩

/-- A path that is refused ends the loading with its error. What stands behind it, and what is found
there, does not matter. -/
theorem loadObservers_of_refuses {before : List String} {path : String}
    (provided : List.Forall₂ f.Provides (f.places before) offers)
    (refuses : f.Refuses (Path.absolute f.path path, before.length) e) (home : f'.path = f.path)
    (same : ∀ place ∈ f.places (before ++ [path]), f'.find place.1 = f.find place.1 ∧
      f'.load place.1 place.2 = f.load place.1 place.2)
    (later : List String) (debug debugHeap : Bool) :
    f'.loadObservers ((before ++ path :: later).map some) debug debugHeap = .error e := by
  rw [places_append_cons] at same
  obtain ⟨earlier, last⟩ := List.forall_mem_append.mp same
  obtain ⟨found, loaded⟩ := last _ List.mem_cons_self
  have first : f'.places before = f.places before := by rw [places, places, home]
  rw [loadObservers_some, places_append_cons, List.foldlM_append, first, home,
    foldlM_loadExtension_congr earlier, foldlM_loadExtension provided]
  change List.foldlM f'.loadExtension _ _ = _
  rw [List.foldlM_cons, loadExtension_congr found loaded, refuses.loadExtension]
  rfl

/-- Unless the value of an option was removed, loading fails at the first path that is refused. -/
theorem loadObservers_error_iff {given : List (Option String)} (kept : e ≠ .pathRemoved) :
    f.loadObservers given debug debugHeap = .error e ↔
      ∃ paths : List String, given = paths.map some ∧ f.FirstRefuses paths e := by
  constructor
  · intro fails
    cases values : given.mapM id with
    | none =>
      unfold loadObservers at fails
      rw [values] at fails
      cases fails
      exact absurd rfl kept
    | some paths =>
      obtain rfl := mapM_id_eq_some_iff.mp values
      refine ⟨paths, rfl, ?_⟩
      obtain ⟨offers, provided⟩ | ⟨e', provided, refuses⟩ := f.all_provide_or_first_refuses paths
      · rw [loadObservers_some, foldlM_loadExtension provided] at fails
        cases fails
      · cases fails.symm.trans
          (loadObservers_of_refuses provided refuses rfl (fun _ _ => ⟨rfl, rfl⟩) _ debug debugHeap)
        exact .intro provided refuses
  · rintro ⟨_, rfl, provided, refuses⟩
    exact loadObservers_of_refuses provided refuses rfl (fun _ _ => ⟨rfl, rfl⟩) _ debug debugHeap

/-- Extensions are loaded in the order of their paths, or the first that is refused is reported. If
none is refused, the step rules are the tracer, if steps or heaps are to be traced, and then those
of the extensions, in the order of the paths and as each extension asks for them. The hooks are
those of the extensions, by descending priority, and in that same order among equal ones. If one is
refused, its error is that of the loading, and nothing behind it is looked at. -/
theorem extensions_load_in_order (f : Folder Notes) (paths : List String)
    (debug debugHeap : Bool) :
    (∃ offers registry, List.Forall₂ f.Provides (f.places paths) offers ∧
      f.loadObservers (paths.map some) debug debugHeap = .ok registry ∧
      registry.rules =
        (if debug || debugHeap then [⟨1, "trace", "builtin", debugHeap, .trace⟩] else []) ++
          offers.flatten.filterMap Observer.rule? ∧
      Hook.Ordered (offers.flatten.filterMap Observer.hook?) registry.hooks ∧
      ∀ event, Hook.Ordered
        ((offers.flatten.filterMap Observer.hook?).filter fun hook => hook.event = event)
        (registry.hooksOn event)) ∨
    ∃ before path after error, paths = before ++ path :: after ∧
      (∀ earlier ∈ f.places before, ∀ e, ¬f.Refuses earlier e) ∧
      f.Refuses (Path.absolute f.path path, before.length) error ∧
      f.loadObservers (paths.map some) debug debugHeap = .error error ∧
      ∀ (f' : Folder Notes) (later : List String), f'.path = f.path →
        (∀ place ∈ f.places (before ++ [path]), f'.find place.1 = f.find place.1 ∧
          f'.load place.1 place.2 = f.load place.1 place.2) →
        f'.loadObservers ((before ++ path :: later).map some) debug debugHeap = .error error := by
  obtain ⟨offers, provided⟩ | ⟨e, @⟨before, path, after, offers, _, provided, refuses⟩⟩ :=
    f.all_provide_or_first_refuses paths
  · have registered :=
      (Registry.registered_builtin debug debugHeap : (_ : Registry Notes).Registered _ _).addAll
        offers.flatten
    refine .inl ⟨offers, _, provided, ?_, registered.rules, registered.hooks, registered.hooks.on⟩
    rw [loadObservers_some]
    exact foldlM_loadExtension provided _
  · refine .inr ⟨before, path, after, e, rfl, ?_, refuses, ?_, ?_⟩
    · have none_refuses := provided.imp fun _ _ provides =>
        And.intro (fun e (refuses : f.Refuses _ e) => provides.not_refuses refuses) provides
      exact ((List.forall₂_and_left _ _).mp none_refuses).1
    · exact loadObservers_of_refuses provided refuses rfl (fun _ _ => ⟨rfl, rfl⟩) after debug
        debugHeap
    · exact fun f' later home same =>
        loadObservers_of_refuses provided refuses home same later debug debugHeap

/-- Registers a hook on the end of the program, and a rule for every step. -/
def plainExtension (priority : Int) : Extension Unit where
  version := none
  name := none
  registration := some <|
    .asks (.subscribe (.event "program_end" priority) (some { name := .ok "farewell" })) fun _ =>
      .asks (.subscribe (.steps 1 "" false) (some { name := .ok "watch" })) fun _ => .done

/-- An extension that is loaded twice registers twice. -/
example :
    let f : Folder Unit :=
      { path := "/work", entries := [("a.py", .file []), ("b.py", .file [])],
        load := fun _ number => .extension (plainExtension (if number = 1 then 5 else 0)) }
    (f.loadObservers [some "a.py", some "./b.py", some "a.py"] true false).toOption.map
        (fun r => (r.hooks.map Hook.owner, r.rules.map StepRule.owner)) =
      some (["b", "a", "a"], ["builtin", "a", "b", "a"]) := by
  rfl

end Folder

end Whitespace
