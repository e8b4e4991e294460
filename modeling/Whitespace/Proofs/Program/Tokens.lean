import Whitespace.Proofs.Program.Resumption

/-!
# Tokens of a text

The tokens of a text are its significant characters, each with the place that the line feeds before
it tell. A source gives them in this order, however they are asked for: some iterations take so many
of them and are left behind, others take all that there are, and each one goes on where the source
stands. Comments are read on the way to a token and not behind it, so the source stands right behind
the last token taken, or at the end of the text once an iteration has come there.

Results:
1. `tokens_ofText`: the tokens of a text are the significant ones of its characters.
2. `Source.iteration_iterate`: what one iteration takes, and where it leaves the source.
3. `Source.exists_read_takeEach`: what iterations take that follow one another.
4. `Source.iterations_filter_text`: all this in terms of the text.
-/

namespace Whitespace

/-- The token that a character of a text is, if it is significant. Its place is told by the
characters before it. -/
def tokenAt? (e : Encoding) (cs : List Char) (c : Char) (index : Nat) : Option Token :=
  (e.kind? c).map fun kind => ⟨kind, .behind (cs.take index)⟩

/-- The significant characters of a text, in their order. -/
def significant (e : Encoding) (cs : List Char) : List Token :=
  cs.zipIdx.filterMap fun (c, index) => tokenAt? e cs c index

namespace Source

/-- What an iteration takes: so many tokens, or all that are left. -/
def iterate (s : Source) : Option Nat → List Token × Source
  | some n => s.take n
  | none => s.drain

/-- What iterations take, one after the other, and the source they leave. -/
def takeEach (s : Source) : List (Option Nat) → List (List Token) × Source
  | [] => ([], s)
  | count :: counts =>
    let (taken, s) := s.iterate count
    let (more, s) := s.takeEach counts
    (taken :: more, s)

/-- An iteration that asks for `count` tokens and takes these has come to the end: it takes fewer
than it asks for. -/
def CameToEnd (count : Option Nat) (taken : List Token) : Prop :=
  ∀ n, count = some n → taken.length < n

/-- `Iteration s count taken s'`: what an iteration over `s` takes that asks for `count` tokens or
for all, and the source that it leaves.

* `full`: as many as it asks for. It reads the text up to the last of them.
* `rest`: fewer of them, which are all that there are. It reads the text to its end. -/
inductive Iteration (s : Source) (count : Option Nat) (taken : List Token) (s' : Source) : Prop
  | full {read : List Char} (asked : count = some taken.length) (reads : s.Reads read s')
      (tokens : taken = tokensFrom s.encoding s.position read) (ends : EndsInToken s.encoding read)
  | rest (short : CameToEnd count taken) (tokens : taken = s.tokens) (finished : s' = s.finish)

end Source

/-! ## Tokens by their index -/

/-- What stands before a part of a text tells the places in it. -/
theorem tokensFrom_behind (e : Encoding) (before cs : List Char) :
    Source.tokensFrom e (.behind before) cs =
      (cs.zipIdx before.length).filterMap fun (c, index) => tokenAt? e (before ++ cs) c index := by
  induction cs generalizing before with
  | nil => rfl
  | cons c rest ih =>
    have place : (Position.behind before).after c = .behind (before ++ [c]) := by
      rw [← Position.foldl_after_start, ← Position.foldl_after_start, List.foldl_append]
      rfl
    have here : tokenAt? e (before ++ c :: rest) c before.length =
        (e.kind? c).map fun kind => ⟨kind, .behind before⟩ := by
      rw [tokenAt?, List.take_left]
    have later := ih (before ++ [c])
    rw [List.append_assoc, List.singleton_append, List.length_append,
      List.length_singleton] at later
    rw [List.zipIdx_cons, List.filterMap_cons, Source.tokensFrom, place, later]
    simp only [here]
    cases e.kind? c <;> rfl

theorem tokensFrom_start (e : Encoding) (cs : List Char) :
    Source.tokensFrom e .start cs = significant e cs :=
  tokensFrom_behind e [] cs

/-- The tokens of a text are its significant characters. -/
theorem tokens_ofText (e : Encoding) (text : String) :
    (Source.ofText e text).tokens = significant e text.toList :=
  tokensFrom_start e text.toList

/-- What comes later in a text changes nothing about the tokens before. -/
theorem significant_isPrefix (e : Encoding) (cs cs' : List Char) :
    significant e cs <+: significant e (cs ++ cs') := by
  rw [← tokensFrom_start, ← tokensFrom_start, tokensFrom_append]
  exact List.prefix_append _ _

namespace Source

variable {s s' : Source} {read : List Char} {count : Option Nat} {taken : List Token}

/-! ## One iteration -/

theorem Reads.finish (h : s.Reads read s') : s'.finish = s.finish := by
  unfold Source.finish
  rw [h.encoding, h.index, h.position, h.rest, List.length_append, List.foldl_append, Nat.add_assoc]

theorem next_go_of_nil {s : Source} {rest : List Char} (index : Nat) {position : Position}
    (h : tokensFrom s.encoding position rest = []) :
    next.go s rest index position = (none, finish ⟨s.encoding, rest, index, position⟩) := by
  induction rest generalizing index position with
  | nil => rfl
  | cons c rest ih =>
    cases kind : s.encoding.kind? c with
    | some _ =>
      simp only [tokensFrom, kind] at h
      cases h
    | none =>
      have one : Reads ⟨s.encoding, c :: rest, index, position⟩ [c]
          ⟨s.encoding, rest, index + 1, position.after c⟩ := ⟨rfl, rfl, rfl, rfl⟩
      simp only [tokensFrom, kind] at h
      simp only [next.go, kind]
      rw [ih (index + 1) h, one.finish]

/-- Without a token left, the text is read to its end. -/
theorem next_of_nil (h : s.tokens = []) : s.next = (none, s.finish) :=
  next_go_of_nil s.index h

/-- A token that is left is read, with the comments before it. -/
theorem next_of_cons {t : Token} {tokens : List Token} (h : s.tokens = t :: tokens) :
    ∃ read s', s.next = (some t, s') ∧ s.Reads read s' ∧ s'.tokens = tokens := by
  obtain ⟨before, c, s', found, reads, -, left⟩ := reads_next_go s.index h
  exact ⟨before ++ [c], s', found, reads, left⟩

theorem take_fst (n : Nat) (s : Source) : (s.take n).1 = s.tokens.take n := by
  induction n generalizing s with
  | zero => rfl
  | succ n ih =>
    cases h : s.tokens with
    | nil => simp only [take, next_of_nil h, List.take_nil]
    | cons t tokens =>
      obtain ⟨read, s', found, -, left⟩ := next_of_cons h
      simp only [take, found, ih, left, List.take_succ_cons]

/-- More tokens than there are cannot be taken, but the text is read to its end then. -/
theorem take_of_length_lt {n : Nat} (short : s.tokens.length < n) : s.take n = s.drain := by
  induction n generalizing s with
  | zero => exact absurd short (Nat.not_lt_zero _)
  | succ n ih =>
    unfold drain
    cases h : s.tokens with
    | nil => simp only [take, next_of_nil h]
    | cons t tokens =>
      obtain ⟨read, s', found, reads, left⟩ := next_of_cons h
      rw [h, List.length_cons] at short
      have rest := ih (s := s') (by rw [left]; omega)
      simp only [take, found, rest, drain, left, reads.finish]

theorem iteration_iterate (s : Source) (count : Option Nat) :
    Iteration s count (s.iterate count).1 (s.iterate count).2 := by
  cases count with
  | none => exact .rest nofun rfl rfl
  | some n =>
    simp only [iterate]
    rcases Nat.lt_or_ge s.tokens.length n with short | enough
    · rw [take_of_length_lt short]
      refine .rest ?_ rfl rfl
      rintro _ ⟨⟩
      exact short
    · obtain ⟨read, reads, left, ends⟩ := exists_take enough
      refine .full ?_ reads ?_ ends
      · rw [take_fst, List.length_take, Nat.min_eq_left enough]
      · -- The tokens that are left are those behind the ones taken.
        have split := reads.tokens
        rw [left] at split
        rw [take_fst]
        exact List.append_cancel_right ((List.take_append_drop n s.tokens).trans split)

/-- What is read of the text for an iteration: all of it, or no more than up to the last token
taken. -/
theorem Iteration.exists_reads (h : Iteration s count taken s') :
    ∃ read, s.Reads read s' ∧ taken = tokensFrom s.encoding s.position read ∧
      (CameToEnd count taken → s'.rest = []) ∧
      (¬CameToEnd count taken → EndsInToken s.encoding read) := by
  cases h with
  | full asked reads tokens ends =>
    exact ⟨_, reads, tokens, fun short => absurd (short _ asked) (lt_irrefl _), fun _ => ends⟩
  | rest short tokens finished =>
    subst finished
    exact ⟨_, reads_finish s, tokens, fun _ => rfl, fun notShort => absurd short notShort⟩

theorem Iteration.length_le (h : Iteration s count taken s') :
    ∀ n, count = some n → taken.length ≤ n := by
  cases h with
  | full asked =>
    rintro n rfl
    exact (Option.some.inj asked).ge
  | rest short => exact fun n asked => (short n asked).le

/-! ## Iterations that follow one another -/

/-- What iterations take that follow one another is what is read of the text. Once one of them has
come to the end the whole text is read; before that, the last character read is a token. -/
theorem exists_read_takeEach (s : Source) (counts : List (Option Nat)) :
    ∃ read, s.Reads read (s.takeEach counts).2 ∧
      (s.takeEach counts).1.flatten = tokensFrom s.encoding s.position read ∧
      List.Forall₂ (fun count taken => ∀ n, count = some n → taken.length ≤ n) counts
        (s.takeEach counts).1 ∧
      ((∃ x ∈ counts.zip (s.takeEach counts).1, CameToEnd x.1 x.2) →
        (s.takeEach counts).2.rest = []) ∧
      ((∀ x ∈ counts.zip (s.takeEach counts).1, ¬CameToEnd x.1 x.2) →
        EndsInToken s.encoding read) := by
  induction counts generalizing s with
  | nil => exact ⟨[], .refl s, rfl, .nil, by simp [takeEach], fun _ => .inl rfl⟩
  | cons count counts ih =>
    have first := iteration_iterate s count
    obtain ⟨read, reads, here, atEnd, endsHere⟩ := first.exists_reads
    obtain ⟨more, later, tokens, bounds, drained, ends⟩ := ih (s.iterate count).2
    rw [reads.encoding] at tokens ends
    simp only [takeEach, List.flatten_cons, List.zip_cons_cons, List.forall₂_cons,
      List.exists_mem_cons_iff, List.forall_mem_cons]
    refine ⟨read ++ more, reads.trans later, ?_, ⟨first.length_le, bounds⟩, ?_, ?_⟩
    · rw [tokensFrom_append, ← here, tokens, reads.position]
    · rintro (short | short)
      · -- What is left then is a part of nothing.
        exact (List.append_eq_nil_iff.mp (later.rest.symm.trans (atEnd short))).2
      · exact drained short
    · exact fun notShort => (endsHere notShort.1).append (ends notShort.2)

/-- The tokens that iterations over a text take are the significant characters of what is read of
it, in their order and with their places, and each iteration takes at most as many as it asks for.
The iterations leave the source right behind the last token that was taken. Once one of them has
come to the end, all tokens are taken, and the source stands at the end of the text. -/
theorem iterations_filter_text (e : Encoding) (text : String) (counts : List (Option Nat)) :
    let taken := ((ofText e text).takeEach counts).1
    let s := ((ofText e text).takeEach counts).2
    taken.flatten <+: significant e text.toList ∧
      taken.flatten = significant e (text.toList.take s.index) ∧
      s.index ≤ text.length ∧
      s.position = .behind (text.toList.take s.index) ∧
      List.Forall₂ (fun count taken => ∀ n, count = some n → taken.length ≤ n) counts taken ∧
      ((∃ x ∈ counts.zip taken, CameToEnd x.1 x.2) →
        taken.flatten = significant e text.toList ∧ s.index = text.length) ∧
      ((∀ x ∈ counts.zip taken, ¬CameToEnd x.1 x.2) →
        EndsInToken e (text.toList.take s.index)) := by
  obtain ⟨read, reads, tokens, bounds, drained, ends⟩ := exists_read_takeEach (ofText e text) counts
  intro taken s
  have split : text.toList = read ++ s.rest := reads.rest
  have index : s.index = read.length := reads.index.trans (Nat.zero_add _)
  have untilHere : text.toList.take s.index = read := by rw [split, index, List.take_left]
  have taken_eq : taken.flatten = significant e read := tokens.trans (tokensFrom_start e read)
  have length : read.length + s.rest.length = text.length := by
    rw [← String.length_toList, split, List.length_append]
  rw [untilHere, index]
  refine ⟨?_, taken_eq, by omega, ?_, bounds, fun short => ?_, ends⟩
  · rw [taken_eq, split]
    exact significant_isPrefix e read s.rest
  · exact reads.position.trans (Position.foldl_after_start read)
  · have ended : s.rest = [] := drained short
    rw [ended, List.length_nil, Nat.add_zero] at length
    rw [taken_eq, split, ended, List.append_nil]
    exact ⟨rfl, length⟩

end Source

end Whitespace
