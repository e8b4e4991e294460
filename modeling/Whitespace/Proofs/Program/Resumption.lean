import Whitespace.Proofs.Grammar.Diagnosis
import Whitespace.Proofs.Program.Locations

/-!
# Decoding in portions

A source may be decoded in portions: each iteration takes a number of instructions, or all that are
left, and the next one goes on where it stopped. Nothing is read ahead and nothing is lost: the
portions are those of a single pass, and after each of them the source stands right behind the last
token of the last instruction taken. This ends with the first portion that fails, since the tokens
of the refused group are not read again.

Results:
1. `Source.exists_take`: what is read of a text for a number of tokens.
2. `Source.portion_decode`: an iteration yields as many instructions as it asks for, or all that
   there are.
3. `Source.Reached.decodeEach`, `Source.Paused.decodeEach`: what holds between iterations.
4. `Source.iterations_continue_full_pass`: one more iteration after any number of others.
-/

namespace Whitespace

namespace Source

/-- What iterations over one source yield, one after the other, and the source they leave. -/
def decodeEach (s : Source) (file : String) : List (Option Nat) → List Decoded × Source
  | [] => ([], s)
  | count :: counts =>
    let (decoded, s) := s.decode file count
    let (more, s) := s.decodeEach file counts
    (decoded :: more, s)

/-- The source has been read up to the last token of the instructions and no further. If there are no
instructions nothing has been read. -/
structure StopsBehind (s : Source) (text : String) (instructions : List Instruction) : Prop where
  index : instructions = [] ∧ s.index = 0 ∨
    ∃ before c after, text.toList = before ++ c :: after ∧ s.encoding.isSignificant c = true ∧
      Spells instructions ((before ++ [c]).filterMap s.encoding.kind?) ∧
      s.index = before.length + 1
  position : s.position = .behind (text.toList.take s.index)

/-- The characters were read from the first source, which left the second one. -/
structure Reads (s : Source) (read : List Char) (s' : Source) : Prop where
  encoding : s'.encoding = s.encoding
  rest : s.rest = read ++ s'.rest
  index : s'.index = s.index + read.length
  position : s'.position = read.foldl Position.after s.position

/-- Nothing has been read, or the last character read is a token. -/
def EndsInToken (e : Encoding) (read : List Char) : Prop :=
  read = [] ∨ ∃ before c, read = before ++ [c] ∧ e.isSignificant c = true

theorem EndsInToken.append {e : Encoding} {read read' : List Char} (h : EndsInToken e read)
    (h' : EndsInToken e read') : EndsInToken e (read ++ read') := by
  rcases h' with rfl | ⟨before, c, rfl, hc⟩
  · rwa [List.append_nil]
  · exact .inr ⟨read ++ before, c, (List.append_assoc ..).symm, hc⟩

end Source

/-- `Portion file tokens count decoded`: what an iteration decodes of the tokens, at most `count`
instructions or all of them.

* `full`: as many instructions as it asks for, without a look at what follows them.
* `rest`: fewer of them, which is all that there are. -/
inductive Portion (file : String) (tokens : List Token) (count : Option Nat) (decoded : Decoded) :
    Prop
  | full (taken : count = some decoded.instructions.length) (failure : decoded.failure = none)
      (atEnd : decoded.atEnd = false) (cut : Cut file tokens decoded.instructions decoded.rest)
  | rest (short : ∀ n, count = some n → decoded.instructions.length < n)
      (all : decoded = decodeAll file tokens)

namespace Source

/-! ## Reading -/

section

variable {s s' s'' : Source} {read read' : List Char}

theorem Reads.refl (s : Source) : s.Reads [] s :=
  ⟨rfl, rfl, rfl, rfl⟩

theorem Reads.trans (h : s.Reads read s') (h' : s'.Reads read' s'') :
    s.Reads (read ++ read') s'' where
  encoding := h'.encoding.trans h.encoding
  rest := by rw [h.rest, h'.rest, List.append_assoc]
  index := by rw [h'.index, h.index, List.length_append, Nat.add_assoc]
  position := by rw [h'.position, h.position, List.foldl_append]

theorem Reads.tokens (h : s.Reads read s') :
    s.tokens = tokensFrom s.encoding s.position read ++ s'.tokens := by
  rw [Source.tokens, h.rest, tokensFrom_append, Source.tokens, h.encoding, h.position]

theorem reads_finish (s : Source) : s.Reads s.rest s.finish :=
  ⟨rfl, (List.append_nil _).symm, rfl, rfl⟩

theorem reads_next_go {s : Source} {rest : List Char} (index : Nat) {position : Position}
    {t : Token} {tokens : List Token} (h : tokensFrom s.encoding position rest = t :: tokens) :
    ∃ before c s', next.go s rest index position = (some t, s') ∧
      Reads ⟨s.encoding, rest, index, position⟩ (before ++ [c]) s' ∧
      s.encoding.isSignificant c = true ∧ s'.tokens = tokens := by
  induction rest generalizing index position with
  | nil => cases h
  | cons c rest ih =>
    have hone : Reads ⟨s.encoding, c :: rest, index, position⟩ [c]
        ⟨s.encoding, rest, index + 1, position.after c⟩ := ⟨rfl, rfl, rfl, rfl⟩
    simp only [tokensFrom, next.go] at h ⊢
    cases hk : s.encoding.kind? c with
    | none =>
      simp only [hk] at h ⊢
      obtain ⟨before, c', s', hgo, hreads, hc, htokens⟩ := ih (index + 1) h
      exact ⟨c :: before, c', s', hgo, hone.trans hreads, hc, htokens⟩
    | some kind =>
      simp only [hk, List.cons.injEq] at h ⊢
      obtain ⟨rfl, rfl⟩ := h
      exact ⟨[], c, _, rfl, hone, by rw [Encoding.isSignificant, hk]; rfl, rfl⟩

/-- The text that is read for a number of tokens: up to the last of them and no further. -/
theorem exists_take {n : Nat} (h : n ≤ s.tokens.length) :
    ∃ read, s.Reads read (s.take n).2 ∧ (s.take n).2.tokens = s.tokens.drop n ∧
      EndsInToken s.encoding read := by
  induction n generalizing s with
  | zero => exact ⟨[], .refl s, rfl, .inl rfl⟩
  | succ n ih =>
    obtain ⟨t, tokens, ht⟩ : ∃ t tokens, s.tokens = t :: tokens :=
      List.exists_cons_of_length_pos (by omega)
    obtain ⟨before, c, s', hnext, hreads, hc, htokens⟩ := reads_next_go s.index ht
    have hn : n ≤ s'.tokens.length := by
      rw [ht, List.length_cons] at h
      rw [htokens]
      omega
    obtain ⟨read, hmore, hdrop, hends⟩ := ih hn
    have htake : (s.take (n + 1)).2 = (s'.take n).2 := by
      rw [take, next, hnext]
    refine ⟨before ++ [c] ++ read, ?_, ?_, ?_⟩
    · rw [htake]
      exact hreads.trans hmore
    · rw [htake, hdrop, ht, htokens, List.drop_succ_cons]
    · rw [hreads.encoding] at hends
      exact .append (.inr ⟨before, c, rfl, hc⟩) hends

end

end Source

/-! ## Portions of tokens -/

section

variable {file : String} {tokens : List Token}

/-- Decoding goes on up to the end of the tokens or to a group that is refused. -/
theorem decodeAll_ends (file : String) (tokens : List Token) :
    (decodeAll file tokens).atEnd = true ∨ (decodeAll file tokens).failure ≠ none := by
  induction hn : tokens.length using Nat.strongRecOn generalizing tokens with
  | ind n ih =>
    cases hr : readInstruction file tokens with
    | ended =>
      rw [readInstruction_ended hr]
      exact .inl rfl
    | failed failure rest =>
      rw [decodeAll_of_failed hr]
      exact .inr nofun
    | instruction i rest =>
      rw [decodeAll_of_instruction hr]
      exact ih _ (hn ▸ readInstruction_length hr) rest rfl

theorem Portion.cons {i : Instruction} {rest : List Token} {count : Option Nat} {decoded : Decoded}
    (hi : readInstruction file tokens = .instruction i rest) (h : Portion file rest count decoded) :
    Portion file tokens (count.map (· + 1))
      { decoded with instructions := i :: decoded.instructions } := by
  cases h with
  | full taken failure atEnd cut =>
    obtain ⟨groups, rfl, hgroups⟩ := cut
    obtain ⟨group, rfl, hgroup⟩ := readInstruction_group.mp hi
    refine .full (by rw [taken]; rfl) failure atEnd ⟨group :: groups, ?_, .cons hgroup hgroups⟩
    rw [List.flatten_cons, List.append_assoc]
  | rest short all =>
    refine .rest (fun n hn => ?_) (by rw [decodeAll_of_instruction hi, ← all])
    obtain ⟨m, hm, rfl⟩ := Option.map_eq_some_iff.mp hn
    exact Nat.succ_lt_succ (short m hm)

theorem portion_decodeUpTo (file : String) (count : Nat) (tokens : List Token) :
    Portion file tokens (some count) (decodeUpTo file count tokens) := by
  induction count generalizing tokens with
  | zero => exact .full rfl rfl rfl ⟨[], rfl, .nil⟩
  | succ count ih =>
    cases hr : readInstruction file tokens with
    | ended | failed =>
      simp only [decodeUpTo, hr]
      refine .rest (fun n hn => ?_) (by simp only [decodeAll, decodeUpTo, hr])
      cases hn
      exact Nat.succ_pos count
    | instruction i rest =>
      simp only [decodeUpTo, hr]
      exact (ih rest).cons hr

section

variable {count : Option Nat} {decoded : Decoded}

theorem Portion.length_le (h : Portion file tokens count decoded) :
    ∀ n, count = some n → decoded.instructions.length ≤ n := by
  cases h with
  | full taken =>
    rintro n rfl
    exact (Option.some.inj taken).ge
  | rest short => exact fun n hn => (short n hn).le

/-- An iteration that yields less than it asks for yields all that there is. -/
theorem Portion.eq_decodeAll (h : Portion file tokens count decoded)
    (short : ∀ n, count = some n → decoded.instructions.length < n) :
    decoded = decodeAll file tokens := by
  cases h with
  | full taken => exact absurd (short _ taken) (lt_irrefl _)
  | rest _ all => exact all

theorem Portion.short_of_failed (h : Portion file tokens count decoded)
    (failed : decoded.failure ≠ none) :
    ∀ n, count = some n → decoded.instructions.length < n := by
  cases h with
  | full _ failure => exact absurd failure failed
  | rest short => exact short

theorem Portion.isPrefix (h : Portion file tokens count decoded) :
    decoded.instructions <+: (decodeAll file tokens).instructions := by
  cases h with
  | full _ _ _ cut =>
    obtain ⟨groups, rfl, hgroups⟩ := cut
    rw [decodeAll_groups hgroups]
    exact List.prefix_append _ _
  | rest _ all => rw [all]

end

end

namespace Source

theorem decode_fst (s : Source) (file : String) (count : Option Nat) :
    (s.decode file count).1 = count.elim (decodeAll file s.tokens) (decodeUpTo file · s.tokens) := by
  unfold decode
  cases count <;> dsimp only <;> split <;> rfl

theorem decode_snd (s : Source) (file : String) (count : Option Nat) :
    (s.decode file count).2 =
      if (s.decode file count).1.atEnd then s.finish
      else (s.take (s.tokens.length - (s.decode file count).1.rest.length)).2 := by
  rw [decode_fst]
  unfold decode
  cases count <;> exact apply_ite Prod.snd _ _ _

theorem portion_decode (s : Source) (file : String) (count : Option Nat) :
    Portion file s.tokens count (s.decode file count).1 := by
  rw [decode_fst]
  cases count with
  | none => exact .rest nofun rfl
  | some count => exact portion_decodeUpTo file count s.tokens

/-! ## Between iterations -/

/-- What is left of the source decodes to what is left of a full pass over the text, behind the
instructions already taken. -/
structure Reached (file : String) (e : Encoding) (text : String) (taken : List Instruction)
    (s : Source) : Prop where
  instructions : (decodeAll file (ofText e text).tokens).instructions =
    taken ++ (decodeAll file s.tokens).instructions
  failure : (decodeAll file (ofText e text).tokens).failure = (decodeAll file s.tokens).failure

/-- What has been read of the text are the instructions taken, up to their last token. -/
def Paused (e : Encoding) (text : String) (taken : List Instruction) (s : Source) : Prop :=
  ∃ read, (ofText e text).Reads read s ∧ Spells taken (read.filterMap e.kind?) ∧ EndsInToken e read

section

variable {file : String} {e : Encoding} {text : String} {taken : List Instruction} {s : Source}
  {count : Option Nat}

theorem reads_decode (s : Source) (file : String) (count : Option Nat) :
    ∃ read, s.Reads read (s.decode file count).2 := by
  rw [decode_snd]
  split
  · exact ⟨s.rest, s.reads_finish⟩
  · obtain ⟨read, hreads, -⟩ := exists_take (s := s) (Nat.sub_le s.tokens.length
      (s.decode file count).1.rest.length)
    exact ⟨read, hreads⟩

theorem reads_decodeEach (s : Source) (file : String) (counts : List (Option Nat)) :
    ∃ read, s.Reads read (s.decodeEach file counts).2 := by
  induction counts generalizing s with
  | nil => exact ⟨[], .refl s⟩
  | cons count counts ih =>
    obtain ⟨read, hreads⟩ := reads_decode s file count
    obtain ⟨read', hreads'⟩ := ih (s.decode file count).2
    exact ⟨_, hreads.trans hreads'⟩

/-- An iteration that comes to the end has read all that was left of the text. -/
theorem index_decode_of_atEnd {read : List Char} (h : (ofText e text).Reads read s)
    (atEnd : (s.decode file count).1.atEnd = true) :
    (s.decode file count).2.index = text.length := by
  have hindex := (h.trans s.reads_finish).index
  rw [decode_snd, if_pos atEnd, hindex, ← h.rest]
  exact (Nat.zero_add _).trans text.length_toList

/-- An iteration that takes as many instructions as it asks for reads them and nothing else. -/
theorem reads_decode_of_cut (atEnd : (s.decode file count).1.atEnd = false)
    (cut : Cut file s.tokens (s.decode file count).1.instructions (s.decode file count).1.rest) :
    ∃ read, s.Reads read (s.decode file count).2 ∧
      (s.decode file count).2.tokens = (s.decode file count).1.rest ∧
      Spells (s.decode file count).1.instructions (read.filterMap s.encoding.kind?) ∧
      EndsInToken s.encoding read := by
  obtain ⟨groups, htokens, hgroups⟩ := cut
  have hlength : s.tokens.length - (s.decode file count).1.rest.length = groups.flatten.length := by
    rw [htokens, List.length_append, Nat.add_sub_cancel]
  obtain ⟨read, hreads, hrest, hends⟩ := exists_take (s := s) (n := groups.flatten.length)
    (by rw [htokens, List.length_append]; exact Nat.le_add_right _ _)
  rw [decode_snd, atEnd, hlength]
  rw [htokens, List.drop_left] at hrest
  refine ⟨read, hreads, hrest, ?_, hends⟩
  have hread := hreads.tokens
  rw [htokens, hrest] at hread
  rw [← map_kind_tokensFrom s.encoding s.position, ← List.append_cancel_right hread]
  exact spells_of_decode_ok (decode_ok_iff.mpr ⟨groups, rfl, hgroups⟩)

/-- After an iteration that did not fail, what the source decodes to is what was taken and what the
rest decodes to. -/
theorem decodeAll_decode (clean : (s.decode file count).1.failure = none) :
    (decodeAll file s.tokens).instructions = (s.decode file count).1.instructions ++
        (decodeAll file (s.decode file count).2.tokens).instructions ∧
      (decodeAll file s.tokens).failure =
        (decodeAll file (s.decode file count).2.tokens).failure := by
  cases portion_decode s file count with
  | full taken failure atEnd cut =>
    obtain ⟨read, -, hrest, -⟩ := reads_decode_of_cut atEnd cut
    obtain ⟨groups, htokens, hgroups⟩ := cut
    rw [hrest, htokens, decodeAll_groups hgroups]
    exact ⟨rfl, rfl⟩
  | rest short all =>
    have hends := decodeAll_ends file s.tokens
    rw [← all, or_iff_left (not_not_intro clean)] at hends
    rw [decode_snd, if_pos hends, ← all, clean]
    exact ⟨(List.append_nil _).symm, rfl⟩

theorem reached_ofText (file : String) (e : Encoding) (text : String) :
    Reached file e text [] (ofText e text) :=
  ⟨rfl, rfl⟩

theorem paused_ofText (e : Encoding) (text : String) : Paused e text [] (ofText e text) :=
  ⟨[], .refl _, ⟨[], rfl, .nil⟩, .inl rfl⟩

/-- An iteration that does not fail takes the instructions that come next. -/
theorem Reached.decode (h : Reached file e text taken s)
    (clean : (s.decode file count).1.failure = none) :
    Reached file e text (taken ++ (s.decode file count).1.instructions) (s.decode file count).2 := by
  obtain ⟨hinstructions, hfailure⟩ := decodeAll_decode clean
  refine ⟨?_, h.failure.trans hfailure⟩
  rw [h.instructions, hinstructions, List.append_assoc]

/-- What an iteration takes comes next in the full pass. -/
theorem Reached.isPrefix (h : Reached file e text taken s) {decoded : Decoded}
    (portion : Portion file s.tokens count decoded) :
    taken ++ decoded.instructions <+: (decodeAll file (ofText e text).tokens).instructions := by
  rw [h.instructions]
  exact (List.prefix_append_right_inj _).mpr portion.isPrefix

/-- An iteration that yields less than it asks for ends as the full pass does. -/
theorem Reached.eq_of_short (h : Reached file e text taken s) {decoded : Decoded}
    (portion : Portion file s.tokens count decoded)
    (short : ∀ n, count = some n → decoded.instructions.length < n) :
    taken ++ decoded.instructions = (decodeAll file (ofText e text).tokens).instructions ∧
      decoded.failure = (decodeAll file (ofText e text).tokens).failure := by
  rw [h.instructions, h.failure, ← portion.eq_decodeAll short]
  exact ⟨rfl, rfl⟩

/-- An iteration that runs into no end stops at the last token of what it takes. -/
theorem Paused.decode (file : String) (count : Option Nat) (h : Paused e text taken s)
    (inside : (s.decode file count).1.failure = none ∧ (s.decode file count).1.atEnd = false) :
    Paused e text (taken ++ (s.decode file count).1.instructions) (s.decode file count).2 := by
  obtain ⟨read, hreads, hspells, hends⟩ := h
  have he : s.encoding = e := hreads.encoding
  cases portion_decode s file count with
  | full taken failure atEnd cut =>
    obtain ⟨read', hreads', -, hspells', hends'⟩ := reads_decode_of_cut atEnd cut
    rw [he] at hspells' hends'
    refine ⟨_, hreads.trans hreads', ?_, ?_⟩
    · rw [List.filterMap_append]
      exact hspells.append hspells'
    · exact hends.append hends'
  | rest short all =>
    have hstops := decodeAll_ends file s.tokens
    rw [← all, inside.1, inside.2] at hstops
    exact absurd hstops (by simp)

theorem Reached.decodeEach (counts : List (Option Nat)) (h : Reached file e text taken s)
    (clean : ∀ d ∈ (s.decodeEach file counts).1, d.failure = none) :
    Reached file e text (taken ++ (s.decodeEach file counts).1.flatMap Decoded.instructions)
      (s.decodeEach file counts).2 := by
  induction counts generalizing taken s with
  | nil => rwa [Source.decodeEach, List.flatMap_nil, List.append_nil]
  | cons count counts ih =>
    obtain ⟨hfirst, hmore⟩ := List.forall_mem_cons.mp clean
    rw [Source.decodeEach, List.flatMap_cons, ← List.append_assoc]
    exact ih (h.decode hfirst) hmore

theorem Paused.decodeEach (file : String) (counts : List (Option Nat)) (h : Paused e text taken s)
    (inside : ∀ d ∈ (s.decodeEach file counts).1, d.failure = none ∧ d.atEnd = false) :
    Paused e text (taken ++ (s.decodeEach file counts).1.flatMap Decoded.instructions)
      (s.decodeEach file counts).2 := by
  induction counts generalizing taken s with
  | nil => rwa [Source.decodeEach, List.flatMap_nil, List.append_nil]
  | cons count counts ih =>
    obtain ⟨hfirst, hmore⟩ := List.forall_mem_cons.mp inside
    rw [Source.decodeEach, List.flatMap_cons, ← List.append_assoc]
    exact ih (h.decode file count hfirst) hmore

theorem Paused.stopsBehind (h : Paused e text taken s) : s.StopsBehind text taken := by
  obtain ⟨read, hreads, hspells, hends⟩ := h
  have hindex : s.index = read.length := hreads.index.trans (Nat.zero_add _)
  have htext : text.toList = read ++ s.rest := hreads.rest
  have he : s.encoding = e := hreads.encoding
  subst he
  refine ⟨?_, ?_⟩
  · rcases hends with rfl | ⟨before, c, rfl, hc⟩
    · exact .inl ⟨hspells.eq_nil, hindex⟩
    · refine .inr ⟨before, c, s.rest, ?_, hc, hspells, ?_⟩
      · rw [htext, List.append_assoc, List.singleton_append]
      · rw [hindex, List.length_append, List.length_singleton]
  · rw [hindex, htext, List.take_left, ← Position.foldl_after_start]
    exact hreads.position

end

/-- Decoding in portions neither looks ahead nor loses anything. An iteration yields at most what it
asks for. As long as none has failed before, what was taken so far is the beginning of what a full
pass yields; the iteration fails only as the full pass does, and behind the same instructions; if it
yields less than it asks for, the full pass is over. As long as none has failed or come to the end,
the source stands behind the last token of the last instruction taken; an iteration that comes to
the end without an error has read the text to its end. -/
theorem iterations_continue_full_pass {file text : String} {e : Encoding}
    {counts : List (Option Nat)} {earlier : List Decoded} {s s' : Source} {count : Option Nat}
    {decoded : Decoded} (made : (ofText e text).decodeEach file counts = (earlier, s))
    (next : s.decode file count = (decoded, s')) :
    let whole := decodeAll file (ofText e text).tokens
    let taken := earlier.flatMap Decoded.instructions ++ decoded.instructions
    (∀ n, count = some n → decoded.instructions.length ≤ n) ∧
      ((∀ d ∈ earlier, d.failure = none) →
        taken <+: whole.instructions ∧
        (∀ failure, decoded.failure = some failure →
          whole.failure = some failure ∧ taken = whole.instructions) ∧
        ((∀ n, count = some n → decoded.instructions.length < n) →
          taken = whole.instructions ∧ decoded.failure = whole.failure)) ∧
      ((∀ d ∈ earlier ++ [decoded], d.failure = none ∧ d.atEnd = false) →
        s'.StopsBehind text taken) ∧
      (decoded.failure = none → decoded.atEnd = true → s'.index = text.length) := by
  intro whole taken
  obtain rfl : _ = decoded := congrArg Prod.fst next
  obtain rfl : _ = s' := congrArg Prod.snd next
  have hportion := portion_decode s file count
  refine ⟨hportion.length_le, fun clean => ?_, fun inside => ?_, fun _ atEnd => ?_⟩
  · have hreached := (reached_ofText file e text).decodeEach counts (by rwa [made])
    rw [made] at hreached
    refine ⟨hreached.isPrefix hportion, fun failure hfailure => ?_, hreached.eq_of_short hportion⟩
    have hshort := hportion.short_of_failed (by rw [hfailure]; nofun)
    obtain ⟨htaken, hwhole⟩ := hreached.eq_of_short hportion hshort
    exact ⟨hwhole.symm.trans hfailure, htaken⟩
  · obtain ⟨hearlier, hlast⟩ := List.forall_mem_append.mp inside
    have hpaused := (paused_ofText e text).decodeEach file counts (by rwa [made])
    rw [made] at hpaused
    exact (hpaused.decode file count (hlast _ (List.mem_singleton_self _))).stopsBehind
  · obtain ⟨read, hreads⟩ := reads_decodeEach (ofText e text) file counts
    rw [made] at hreads
    exact index_decode_of_atEnd hreads atEnd

/-- Two instructions with a comment between them, taken one by one: the source stands behind the
second of them, before the comment that ends the text. -/
theorem second_portion_stops_before_comment :
    ∃ earlier decoded s s',
      (ofText .stl "LLL end\nSLS end").decodeEach "p.stl" [some 1] = (earlier, s) ∧
      s.decode "p.stl" (some 1) = (decoded, s') ∧ decoded.failure = none ∧
      s'.StopsBehind "LLL end\nSLS end"
        (earlier.flatMap Decoded.instructions ++ decoded.instructions) ∧
      s'.index = 11 ∧ s'.position = ⟨2, 4⟩ := by
  have made : (ofText .stl "LLL end\nSLS end").decodeEach "p.stl" [some 1] = (_, _) := rfl
  have next : ((ofText .stl "LLL end\nSLS end").decodeEach "p.stl" [some 1]).2.decode "p.stl"
      (some 1) = (_, _) := rfl
  obtain ⟨-, -, stops, -⟩ := iterations_continue_full_pass made next
  exact ⟨_, _, _, _, made, rfl, rfl, stops (by decide), rfl, rfl⟩

/-- An iteration that is started after one that failed goes on behind the refused group: here it
finds an exit behind a number without a sign, where a full pass finds no instruction. -/
theorem iteration_after_failure_goes_on :
    ¬((ofText .stl "SSLLLL").decodeEach "<string>" [none, none]).1.flatMap Decoded.instructions <+:
      (decodeAll "<string>" (ofText .stl "SSLLLL").tokens).instructions := by
  decide

end Source

end Whitespace
