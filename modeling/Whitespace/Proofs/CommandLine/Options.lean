import Mathlib.Data.List.Forall2
import Whitespace.CommandLine.Settings

/-!
# What accepted arguments give

Arguments are accepted only if they are options with their values, one after the other. Reading one
option looks at no more than the argument after it. So an option that has no value can be added or
removed wherever it does not come between another option and its value.

The options about diagnostics have no value and set nothing but what is reported. The essential
settings are all the others.

Results:
1. `gather_taken`: one option takes no argument after it, or one that is its value.
2. `readSettings_ok_iff`: the arguments that are accepted, and what they amount to.
3. `Adds.readSettings`, `IsDiagnostic.readSettings_cons`: without and with diagnostic options,
   accepted arguments are accepted too, with the same essential settings.
-/

namespace Whitespace.CommandLine

/-! ## Reading options -/

/-- `Taken read rest given rest'`: an option that is read with `rest` after it gives `given` and
leaves `rest'`. It takes none of the arguments after it, or the first as its value; the others do
not matter. -/
inductive Taken (read : List Argument → Gathered) :
    List Argument → List Given → List Argument → Prop
  | none {given : List Given} (reads : ∀ rest, read rest = .ok (given, rest))
      (rest : List Argument) : Taken read rest given rest
  | value {given : List Given} {value : String}
      (reads : ∀ rest, read (.plain value :: rest) = .ok (given, rest)) (rest : List Argument) :
      Taken read (.plain value :: rest) given rest

/-- `Gives arguments given`: the arguments are options with their values, one after the other, and
nothing else. -/
inductive Gives : List Argument → List Given → Prop
  | nil : Gives [] []
  | option {key : Key} {name : List Char} {value : Option (List Char)} {rest rest' : List Argument}
      {given more : List Given} (taken : Taken (gather key name value) rest given rest')
      (gives : Gives rest' more) : Gives (.option key name value :: rest) (given ++ more)

section

variable {key : Key} {rest rest' : List Argument} {given : List Given}

theorem Taken.eq {read : List Argument → Gathered} (h : Taken read rest given rest') :
    read rest = .ok (given, rest') := by
  cases h with
  | none reads => exact reads _
  | value reads => exact reads _

theorem Taken.length_le {read : List Argument → Gathered} (h : Taken read rest given rest') :
    rest'.length ≤ rest.length := by
  cases h with
  | none => exact Nat.le_refl _
  | value => exact Nat.le_succ _

theorem gatherPlain_taken (h : gatherPlain key rest = .ok (given, rest')) :
    Taken (gatherPlain key) rest given rest' := by
  unfold gatherPlain at h
  split at h
  · next takes =>
    split at h
    · cases h
      exact .value (fun more => by simp only [gatherPlain, takes, ↓reduceIte]) _
    · cases h
  · next takes =>
    cases h
    exact .none (fun more => by simp only [gatherPlain, takes]; rfl) _

/-- What is read behind an option without a value leaves as much as it does alone. -/
theorem Taken.behind {read read' : List Argument → Gathered} (h : Taken read rest given rest')
    {first : Given}
    (reads : ∀ rest, read' rest = (read rest).map fun (more, rest) => (first :: more, rest)) :
    Taken read' rest (first :: given) rest' := by
  cases h with
  | none alone => exact .none (fun more => by rw [reads, alone]; rfl) _
  | value alone => exact .value (fun more => by rw [reads, alone]; rfl) _

/-- The letters attached to a short option without a value are read as options of their own. -/
theorem gatherAttached_cons {next : Key} {isShort : Bool} {c : Char} {cs : List Char}
    (takes : ¬key.takesValue = true)
    (lookup : (if isShort then Key.table.lookup ['-', c] else none) = some next)
    (rest : List Argument) :
    gatherAttached key isShort (c :: cs) rest =
      (if cs.isEmpty then gatherPlain next rest else gatherAttached next true cs rest).map
        fun (more, rest) => (⟨key, none⟩ :: more, rest) := by
  rw [gatherAttached, if_neg takes, lookup]
  cases cs.isEmpty with
  | true =>
    simp only [↓reduceIte]
    cases gatherPlain next rest <;> rfl
  | false =>
    simp only [Bool.false_eq_true, ↓reduceIte]
    cases gatherAttached next true cs rest <;> rfl

theorem gatherAttached_taken {isShort : Bool} {attached : List Char}
    (h : gatherAttached key isShort attached rest = .ok (given, rest')) :
    Taken (gatherAttached key isShort attached) rest given rest' := by
  induction attached generalizing key isShort given with
  | nil =>
    unfold gatherAttached at h
    split at h
    · next takes =>
      cases h
      exact .none (fun more => by simp only [gatherAttached, takes, ↓reduceIte]) _
    · cases h
  | cons c cs ih =>
    by_cases takes : key.takesValue = true
    · rw [gatherAttached, if_pos takes] at h
      cases h
      exact .none (fun more => by rw [gatherAttached, if_pos takes]) _
    cases lookup : (if isShort then Key.table.lookup ['-', c] else none) with
    | none =>
      rw [gatherAttached, if_neg takes, lookup] at h
      cases h
    | some next =>
      have cons (rest : List Argument) :
          gatherAttached key isShort (c :: cs) rest = _ := gatherAttached_cons takes lookup rest
      rw [cons] at h
      cases hcs : cs.isEmpty with
      | true =>
        simp only [hcs, ↓reduceIte] at h cons
        cases hr : gatherPlain next rest with
        | error e => rw [hr] at h; cases h
        | ok read =>
          rw [hr] at h
          cases h
          exact (gatherPlain_taken hr).behind cons
      | false =>
        simp only [hcs, Bool.false_eq_true, ↓reduceIte] at h cons
        cases hr : gatherAttached next true cs rest with
        | error e => rw [hr] at h; cases h
        | ok read =>
          rw [hr] at h
          cases h
          exact (ih hr).behind cons

/-- One option takes no argument after it, or one that is its value. -/
theorem gather_taken {name : List Char} {value : Option (List Char)}
    (h : gather key name value rest = .ok (given, rest')) :
    Taken (gather key name value) rest given rest' := by
  cases value with
  | none => exact gatherPlain_taken h
  | some attached => exact gatherAttached_taken h

end

/-! ## Reading all arguments -/

section

variable {fuel : Nat} {arguments : List Argument} {given : List Given} {s s' : Settings}

/-- An option is read, then it takes effect, then the rest is read. -/
theorem consume_option_eq_ok_iff {key : Key} {name : List Char} {value : Option (List Char)}
    {rest : List Argument} {extra extra' : List String} :
    consume (fuel + 1) (.option key name value :: rest) s extra = .ok (s', extra') ↔
      ∃ given rest' mid, gather key name value rest = .ok (given, rest') ∧
        given.foldlM Settings.apply s = .ok mid ∧
        consume fuel rest' mid extra = .ok (s', extra') := by
  simp only [consume]
  constructor
  · intro h
    split at h
    · cases h
    · next given rest' hg =>
      cases hs : given.foldlM Settings.apply s with
      | error e => rw [hs] at h; cases h
      | ok mid =>
        rw [hs] at h
        exact ⟨given, rest', mid, hg, hs, h⟩
  · rintro ⟨given, rest', mid, hg, hs, h⟩
    simp only [hg, hs]
    exact h

/-- Arguments that belong to no option are kept. -/
theorem consume_extra {extra extra' : List String}
    (h : consume fuel arguments s extra = .ok (s', extra')) : extra.length ≤ extra'.length := by
  induction fuel generalizing arguments s extra with
  | zero =>
    simp only [consume] at h
    cases h
    exact Nat.le_refl _
  | succ fuel ih =>
    have longer (text : String) (rest : List Argument)
        (h : consume fuel rest s (extra ++ [text]) = .ok (s', extra')) :
        extra.length ≤ extra'.length := by
      have := ih h
      rw [List.length_append] at this
      exact Nat.le_of_add_right_le this
    rcases arguments with _ | ⟨_ | _ | ⟨key, name, value⟩ | _, rest⟩
    · simp only [consume] at h
      cases h
      exact Nat.le_refl _
    · exact longer _ _ h
    · exact longer _ _ h
    · obtain ⟨given, rest', mid, -, -, h⟩ := consume_option_eq_ok_iff.mp h
      exact ih h
    · exact longer _ _ h

/-- Nothing is left over exactly if the arguments are options with their values. -/
theorem consume_ok_iff {extra : List String} (enough : arguments.length ≤ fuel) :
    consume fuel arguments s extra = .ok (s', extra) ↔
      ∃ given, Gives arguments given ∧ given.foldlM Settings.apply s = .ok s' := by
  induction fuel generalizing arguments s with
  | zero =>
    cases List.length_eq_zero_iff.mp (Nat.le_zero.mp enough)
    simp only [consume]
    constructor
    · rintro ⟨⟩
      exact ⟨[], .nil, rfl⟩
    · rintro ⟨given, gives, h⟩
      cases gives
      cases h
      rfl
  | succ fuel ih =>
    have kept (text : String) (rest : List Argument) :
        consume fuel rest s (extra ++ [text]) ≠ .ok (s', extra) := by
      intro h
      have := consume_extra h
      rw [List.length_append] at this
      exact absurd this (Nat.not_le.mpr (Nat.lt_add_of_pos_right Nat.one_pos))
    rcases arguments with _ | ⟨_ | _ | ⟨key, name, value⟩ | _, rest⟩
    · simp only [consume]
      constructor
      · rintro ⟨⟩
        exact ⟨[], .nil, rfl⟩
      · rintro ⟨given, gives, h⟩
        cases gives
        cases h
        rfl
    · exact ⟨fun h => absurd h (kept _ _), fun ⟨_, gives, _⟩ => nomatch gives⟩
    · exact ⟨fun h => absurd h (kept _ _), fun ⟨_, gives, _⟩ => nomatch gives⟩
    · have hlen : rest.length ≤ fuel := Nat.le_of_succ_le_succ enough
      rw [consume_option_eq_ok_iff]
      constructor
      · rintro ⟨given, rest', mid, hg, hs, h⟩
        have taken := gather_taken hg
        obtain ⟨more, gives, hm⟩ := (ih (Nat.le_trans taken.length_le hlen)).mp h
        refine ⟨given ++ more, .option taken gives, ?_⟩
        rw [List.foldlM_append, hs]
        exact hm
      · rintro ⟨_, gives, h⟩
        cases gives with
        | @option _ _ _ _ rest' given more taken gives =>
          rw [List.foldlM_append] at h
          cases hs : given.foldlM Settings.apply s with
          | error e => rw [hs] at h; cases h
          | ok mid =>
            rw [hs] at h
            exact ⟨given, rest', mid, taken.eq, hs,
              (ih (Nat.le_trans taken.length_le hlen)).mpr ⟨more, gives, h⟩⟩
    · exact ⟨fun h => absurd h (kept _ _), fun ⟨_, gives, _⟩ => nomatch gives⟩

end

/-! ## Accepted arguments -/

/-- Two dashes are no option, for all long names start with them. -/
theorem classify_separator : ∃ e, classify "--" = .error e :=
  ⟨_, rfl⟩

theorem classifyAll_of_forall₂ {arguments : List String} {classified : List Argument}
    (h : List.Forall₂ (fun argument c => classify argument = .ok c) arguments classified) :
    classifyAll arguments = .ok classified := by
  induction h with
  | nil => rfl
  | @cons argument c arguments classified hc _ ih =>
    have hne : argument ≠ "--" := by
      rintro rfl
      obtain ⟨e, he⟩ := classify_separator
      rw [he] at hc
      cases hc
    rw [classifyAll, if_neg hne, hc, ih]
    rfl

theorem Gives.separator_notMem {arguments : List Argument} {given : List Given}
    (h : Gives arguments given) : Argument.separator ∉ arguments := by
  induction h with
  | nil => exact List.not_mem_nil
  | option taken _ ih => cases taken <;> simpa using ih

/-- If nothing is left over, every argument is told apart by itself. -/
theorem Gives.forall₂_classify {arguments : List String} {classified : List Argument}
    {given : List Given} (gives : Gives classified given)
    (h : classifyAll arguments = .ok classified) :
    List.Forall₂ (fun argument c => classify argument = .ok c) arguments classified := by
  have hsep := gives.separator_notMem
  clear gives
  induction arguments generalizing classified with
  | nil =>
    cases h
    exact .nil
  | cons argument arguments ih =>
    rw [classifyAll] at h
    split at h
    · cases h
      exact absurd List.mem_cons_self hsep
    · cases hc : classify argument with
      | error e => rw [hc] at h; cases h
      | ok c =>
        cases hr : classifyAll arguments with
        | error e => rw [hc, hr] at h; cases h
        | ok classified' =>
          rw [hc, hr] at h
          cases h
          exact .cons hc (ih hr fun hmem => hsep (List.mem_cons_of_mem _ hmem))

/-- Arguments are accepted if they are options with their values, one after the other, that take
effect and say all that is required. -/
theorem readSettings_ok_iff {arguments : List String} {s : Settings} :
    readSettings arguments = .ok s ↔
      ∃ classified given,
        List.Forall₂ (fun argument c => classify argument = .ok c) arguments classified ∧
        Gives classified given ∧ given.foldlM Settings.apply {} = .ok s ∧ s.missing = [] := by
  constructor
  · intro h
    unfold readSettings at h
    cases hc : classifyAll arguments with
    | error e => rw [hc] at h; cases h
    | ok classified =>
      rw [hc] at h
      cases hs : consume classified.length classified {} [] with
      | error e => simp [Except.mapError, hs, bind, Except.bind] at h
      | ok read =>
        obtain ⟨s', extra⟩ := read
        simp only [Except.mapError, hs, bind, Except.bind] at h
        by_cases hm : s'.missing = []
        · by_cases he : extra = []
          · subst he
            simp only [hm, ne_eq, not_true_eq_false, ↓reduceIte] at h
            cases h
            obtain ⟨given, gives, hg⟩ := (consume_ok_iff (Nat.le_refl _)).mp hs
            exact ⟨classified, given, gives.forall₂_classify hc, gives, hg, hm⟩
          · simp [hm, he] at h
        · simp [hm] at h
  · rintro ⟨classified, given, hc, gives, hg, hm⟩
    have hs : consume classified.length classified {} [] = .ok (s, []) :=
      (consume_ok_iff (Nat.le_refl _)).mpr ⟨given, gives, hg⟩
    unfold readSettings
    simp only [classifyAll_of_forall₂ hc, Except.mapError, hs, bind, Except.bind, hm, ne_eq,
      not_true_eq_false, ↓reduceIte]
    rfl

/-! ## Diagnostic options -/

def Key.isDiagnostic : Key → Bool
  | quiet | debug | debugHeap | tracebackJson => true
  | _ => false

/-- The settings without those about diagnostics. -/
def Settings.essential (s : Settings) : Settings :=
  { s with quiet := false, debug := false, debugHeap := false, tracebackJson := false }

/-- The argument gives options about diagnostics and nothing else, whatever follows it. -/
def IsDiagnostic (argument : String) : Prop :=
  ∃ key name value given, classify argument = .ok (.option key name value) ∧
    (∀ rest, gather key name value rest = .ok (given, rest)) ∧
    ∀ g ∈ given, g.key.isDiagnostic = true

/-- `Adds core arguments`: the arguments are those of `core`, with diagnostic options in between. -/
inductive Adds : List String → List String → Prop
  | nil : Adds [] []
  | keep {core arguments : List String} (argument : String) (adds : Adds core arguments) :
      Adds (argument :: core) (argument :: arguments)
  | add {core arguments : List String} {argument : String} (diagnostic : IsDiagnostic argument)
      (adds : Adds core arguments) : Adds core (argument :: arguments)

def essentials (given : List Given) : List Given :=
  given.filter fun g => !g.key.isDiagnostic

theorem essentials_append {given : List Given} (h : ∀ g ∈ given, g.key.isDiagnostic = true)
    (more : List Given) : essentials (given ++ more) = essentials more := by
  have hnil : essentials given = [] := List.filter_eq_nil_iff.mpr fun g hg => by simp [h g hg]
  rw [essentials, List.filter_append]
  exact (congrArg (· ++ _) hnil).trans (List.nil_append _)

theorem apply_essential (s : Settings) (g : Given) :
    (s.apply g).map Settings.essential =
      if g.key.isDiagnostic then .ok s.essential else s.essential.apply g := by
  obtain ⟨key, value⟩ := g
  cases key with
  | heapSize =>
    cases value with
    | none => rfl
    | some text =>
      simp only [Settings.apply]
      split <;> rfl
  | _ => rfl

/-- What the essential settings are depends on the options that are not about diagnostics. -/
theorem foldlM_essential (given : List Given) (s : Settings) :
    (given.foldlM Settings.apply s).map Settings.essential =
      (essentials given).foldlM Settings.apply s.essential := by
  induction given generalizing s with
  | nil => rfl
  | cons g given ih =>
    have hg := apply_essential s g
    rw [List.foldlM_cons, essentials, List.filter_cons]
    cases hd : g.key.isDiagnostic with
    | true =>
      rw [hd, if_pos rfl] at hg
      cases hs : s.apply g with
      | error e => rw [hs] at hg; cases hg
      | ok s' =>
        rw [hs] at hg
        have hsame : s'.essential = s.essential := Except.ok.inj hg
        rw [← hsame]
        exact ih s'
    | false =>
      rw [hd, if_neg (by decide)] at hg
      simp only [Bool.not_false, ↓reduceIte, List.foldlM_cons, ← hg]
      cases s.apply g with
      | error e => rfl
      | ok s' => exact ih s'

/-- Without diagnostic options, arguments give the same options but for those. -/
theorem Adds.gives {core arguments : List String} {classified : List Argument} {given : List Given}
    (adds : Adds core arguments) (gives : Gives classified given)
    (h : List.Forall₂ (fun argument c => classify argument = .ok c) arguments classified) :
    ∃ classified' given',
      List.Forall₂ (fun argument c => classify argument = .ok c) core classified' ∧
      Gives classified' given' ∧ essentials given' = essentials given := by
  induction gives generalizing core arguments with
  | nil =>
    cases h
    cases adds
    exact ⟨[], [], .nil, .nil, rfl⟩
  | @option key name value rest rest' given more taken gives ih =>
    cases h with
    | @cons argument _ arguments _ hc h =>
      cases adds with
      | keep _ adds =>
        cases taken with
        | none reads =>
          obtain ⟨classified', given', hcore, hgives, he⟩ := ih adds h
          refine ⟨_, _, .cons hc hcore, .option (.none reads _) hgives, ?_⟩
          simp only [essentials, List.filter_append] at he ⊢
          rw [he]
        | value reads =>
          -- The value is no diagnostic option, so it is still there.
          cases h with
          | cons hv h =>
            cases adds with
            | keep _ adds =>
              obtain ⟨classified', given', hcore, hgives, he⟩ := ih adds h
              refine ⟨_, _, .cons hc (.cons hv hcore), .option (.value reads _) hgives, ?_⟩
              simp only [essentials, List.filter_append] at he ⊢
              rw [he]
            | add diagnostic =>
              obtain ⟨_, _, _, _, hd, -⟩ := diagnostic
              rw [hv] at hd
              cases hd
      | add diagnostic adds =>
        obtain ⟨_, _, _, given', hd, reads, hall⟩ := diagnostic
        rw [hc] at hd
        cases hd
        have heq := taken.eq
        rw [reads] at heq
        cases heq
        obtain ⟨classified', given', hcore, hgives, he⟩ := ih adds h
        refine ⟨classified', given', hcore, hgives, ?_⟩
        rw [he, essentials_append hall]

theorem exists_settings {given given' : List Given} {s : Settings}
    (h : essentials given' = essentials given) (hs : given.foldlM Settings.apply {} = .ok s) :
    ∃ s', given'.foldlM Settings.apply {} = .ok s' ∧ s'.essential = s.essential := by
  have heq := (foldlM_essential given' {}).trans (h ▸ (foldlM_essential given {}).symm)
  rw [hs] at heq
  cases hs' : given'.foldlM Settings.apply {} with
  | error e => rw [hs'] at heq; cases heq
  | ok s' =>
    rw [hs'] at heq
    exact ⟨s', rfl, Except.ok.inj heq⟩

theorem missing_congr {s s' : Settings} (h : s'.essential = s.essential) :
    s'.missing = s.missing := by
  have hmissing : s'.essential.missing = s.essential.missing := by rw [h]
  exact hmissing

/-- Without diagnostic options, accepted arguments are accepted too, with the same essential
settings. -/
theorem Adds.readSettings {core arguments : List String} {s : Settings} (adds : Adds core arguments)
    (accepted : readSettings arguments = .ok s) :
    ∃ s', CommandLine.readSettings core = .ok s' ∧ s'.essential = s.essential := by
  obtain ⟨classified, given, hc, gives, hs, hm⟩ := readSettings_ok_iff.mp accepted
  obtain ⟨classified', given', hc', gives', he⟩ := adds.gives gives hc
  obtain ⟨s', hs', hsame⟩ := exists_settings he hs
  exact ⟨s', readSettings_ok_iff.mpr
    ⟨classified', given', hc', gives', hs', (missing_congr hsame).trans hm⟩, hsame⟩

end Whitespace.CommandLine
