import Mathlib.Data.List.DropRight
import Whitespace.Proofs.Machine.ByName
import Whitespace.Proofs.Program.Encodings

/-!
# Where instructions stand

The places that a program keeps for its reports cut its text into the instructions: from the place of
one instruction up to that of the next there is that instruction, with the comments behind its
tokens, and nothing else.

Results:
1. `Position.foldl_after_start`: the place behind a text, counted in lines and columns.
2. `stretch_eq`: what stands between two places of a text.
3. `exists_piece_of_decode`: the piece of a text that an instruction was decoded from.
4. `Program.locations_cut_text`: the places of a program cut its text into its instructions.
-/

namespace Whitespace

namespace Position

/-- On an earlier line, or further left on the same one. -/
def Before (p q : Position) : Prop :=
  p.line < q.line ∨ p.line = q.line ∧ p.column < q.column

instance (p q : Position) : Decidable (p.Before q) :=
  inferInstanceAs (Decidable (_ ∨ _))

/-- The place behind a text. Line feeds end lines, and nothing else does; a column is a number of
characters. -/
def behind (cs : List Char) : Position :=
  ⟨1 + cs.count '\n', 1 + (cs.rtakeWhile (· ≠ '\n')).length⟩

end Position

/-- Not before the one place, but before the other one, if there is one. -/
def Position.Within (p first : Position) (next : Option Position) : Prop :=
  ¬p.Before first ∧ ∀ place ∈ next, p.Before place

instance (p first : Position) (next : Option Position) :
    Decidable (p.Within first next) :=
  inferInstanceAs (Decidable (_ ∧ _))

/-- The characters of a text, each with the place where it stands. -/
def placed : Position → List Char → List (Position × Char)
  | _, [] => []
  | position, c :: rest => (position, c) :: placed (position.after c) rest

/-- The part of a text from one place on up to another one, or to the end of the text. -/
def stretch (text : String) (first : Position) (next : Option Position) : String :=
  String.ofList (((placed .start text.toList).filter (·.1.Within first next)).map Prod.snd)

def Program.place? (p : Program) (position : Nat) : Option Position :=
  (p.instructions[position]?.bind Instruction.location).map Location.position

/-! ## Lines and columns -/

namespace Position

theorem Before.trans {p q r : Position} (h : p.Before q) (h' : q.Before r) : p.Before r := by
  unfold Before at *
  omega

theorem not_before_self (p : Position) : ¬p.Before p := by
  unfold Before
  omega

theorem before_after (p : Position) (c : Char) : p.Before (p.after c) := by
  unfold Before after
  split
  · exact .inl (Int.lt_succ p.line)
  · exact .inr ⟨rfl, Int.lt_succ p.column⟩

theorem before_foldl_after (p : Position) {cs : List Char} (h : cs ≠ []) :
    p.Before (cs.foldl after p) := by
  induction cs generalizing p with
  | nil => exact absurd rfl h
  | cons c rest ih =>
    by_cases hrest : rest = []
    · rw [hrest]
      exact p.before_after c
    · exact (p.before_after c).trans (ih _ hrest)

/-- The place behind a text is told by its line feeds and by what follows the last of them. -/
theorem foldl_after_start (cs : List Char) : cs.foldl after .start = behind cs := by
  -- A character is added at the end of the text.
  induction cs using List.reverseRecOn with
  | nil => rfl
  | append_singleton cs c ih =>
    rw [List.foldl_append, ih, List.foldl_cons, List.foldl_nil, behind, behind, List.count_append,
      List.rtakeWhile_concat, after]
    by_cases h : c = '\n'
    · simp [h, Int.add_assoc]
    · simp [h, Int.add_assoc]

end Position

/-! ## Stretches -/

theorem placed_append (position : Position) (cs cs' : List Char) :
    placed position (cs ++ cs') =
      placed position cs ++ placed (cs.foldl Position.after position) cs' := by
  induction cs generalizing position with
  | nil => rfl
  | cons c rest ih => exact congrArg ((position, c) :: ·) (ih _)

theorem map_snd_placed (position : Position) (cs : List Char) :
    (placed position cs).map Prod.snd = cs := by
  induction cs generalizing position with
  | nil => rfl
  | cons c rest ih => exact congrArg (c :: ·) (ih _)

/-- The characters of a text stand between its two ends. -/
theorem between_of_mem_placed {position : Position} {cs : List Char} {entry : Position × Char}
    (h : entry ∈ placed position cs) :
    ¬entry.1.Before position ∧ entry.1.Before (cs.foldl Position.after position) := by
  induction cs generalizing position with
  | nil => cases h
  | cons c rest ih =>
    rcases List.mem_cons.mp h with rfl | h
    · exact ⟨position.not_before_self, position.before_foldl_after (List.cons_ne_nil c rest)⟩
    · obtain ⟨hfirst, hlast⟩ := ih h
      exact ⟨fun hbefore => hfirst (hbefore.trans (position.before_after c)), hlast⟩

/-- What stands between two places of a text. -/
theorem stretch_eq {text : String} {before piece rest : List Char} {next : Option Position}
    (split : text.toList = before ++ (piece ++ rest))
    (ends : next = none ∧ rest = [] ∨ next = some (.behind (before ++ piece))) :
    stretch text (.behind before) next = String.ofList piece := by
  rw [← Position.foldl_after_start, List.foldl_append] at ends
  rw [← Position.foldl_after_start, stretch, split, placed_append, placed_append]
  have hbefore : ∀ entry ∈ placed .start before,
      ¬entry.1.Within (before.foldl Position.after .start) next :=
    fun entry h hwithin => hwithin.1 (between_of_mem_placed h).2
  generalize before.foldl Position.after .start = first at *
  have hpiece : ∀ entry ∈ placed first piece, entry.1.Within first next := by
    intro entry h
    refine ⟨(between_of_mem_placed h).1, fun place hplace => ?_⟩
    rcases ends with ⟨rfl, -⟩ | rfl
    · cases hplace
    · rw [← Option.mem_some_iff.mp hplace]
      exact (between_of_mem_placed h).2
  have hrest : ∀ entry ∈ placed (piece.foldl Position.after first) rest,
      ¬entry.1.Within first next := by
    intro entry h hwithin
    rcases ends with ⟨-, rfl⟩ | rfl
    · cases h
    · exact (between_of_mem_placed h).1 (hwithin.2 _ rfl)
  rw [List.filter_append, List.filter_append,
    List.filter_eq_nil_iff.mpr (by simpa only [decide_eq_true_eq] using hbefore),
    List.filter_eq_self.mpr (by simpa only [decide_eq_true_eq] using hpiece),
    List.filter_eq_nil_iff.mpr (by simpa only [decide_eq_true_eq] using hrest),
    List.nil_append, List.append_nil, map_snd_placed]

/-! ## Decoding -/

/-- The piece of a text that an instruction was decoded from: it begins where the instruction stands,
with one of its tokens, and it ends where the next instruction stands. -/
theorem exists_piece_of_decode {file text : String} {e : Encoding} {is : List Instruction}
    (decoded : decode file (Source.ofText e text).tokens = .ok is) {k : Nat} {i : Instruction}
    (hi : is[k]? = some i) :
    ∃ before c piece rest, text.toList = before ++ (c :: piece ++ rest) ∧
      e.isSignificant c = true ∧ i.location = some ⟨file, .behind before⟩ ∧
      i.Spelling ((c :: piece).filterMap e.kind?) ∧
      (is[k + 1]? = none ∧ rest = [] ∨
        ∃ j, is[k + 1]? = some j ∧ j.location = some ⟨file, .behind (before ++ c :: piece)⟩) := by
  obtain ⟨groups, htokens, hgroups⟩ := decode_ok_iff.mp decoded
  replace htokens : Source.tokensFrom e .start text.toList = groups.flatten := htokens
  obtain ⟨hlt, rfl⟩ := List.getElem?_eq_some_iff.mp hi
  have hdrop := List.forall₂_drop k hgroups
  rw [List.drop_eq_getElem_cons hlt] at hdrop
  obtain ⟨group, groups', hgroup, hgroups', hcut⟩ := List.forall₂_cons_left_iff.mp hdrop
  rw [← List.take_append_drop k groups, hcut, List.flatten_append, List.flatten_cons] at htokens
  obtain ⟨before, _, htext, -, hmore, -, hhead⟩ := exists_split_tokensFrom htokens
  obtain ⟨piece, rest, rfl, hpiece, -, hend, hnext⟩ := exists_split_tokensFrom hmore
  obtain ⟨hspelling, first, hfirst, hlocation⟩ := hgroup
  obtain ⟨more, rfl⟩ := List.head?_eq_some_iff.mp hfirst
  obtain ⟨hplace, c, chars, hchars, hkind⟩ := hhead first _ rfl
  cases piece with
  | nil => cases hpiece
  | cons c' piece =>
    obtain ⟨rfl, -⟩ := List.cons.inj hchars
    refine ⟨before, c', piece, rest, htext, by rw [Encoding.isSignificant, hkind]; rfl, ?_, ?_, ?_⟩
    · rw [hlocation, hplace, Position.foldl_after_start]
    · rwa [← hpiece, map_kind_tokensFrom] at hspelling
    · cases hj : is[k + 1]? with
      | none =>
        rw [List.drop_eq_nil_of_le (List.getElem?_eq_none_iff.mp hj)] at hgroups'
        cases hgroups'
        exact .inl ⟨rfl, hend rfl⟩
      | some j =>
        obtain ⟨hlt', rfl⟩ := List.getElem?_eq_some_iff.mp hj
        rw [List.drop_eq_getElem_cons hlt'] at hgroups'
        obtain ⟨group', _, ⟨-, first', hfirst', hlocation'⟩, -, rfl⟩ :=
          List.forall₂_cons_left_iff.mp hgroups'
        obtain ⟨more', rfl⟩ := List.head?_eq_some_iff.mp hfirst'
        refine .inr ⟨_, rfl, ?_⟩
        rw [hlocation', (hnext first' _ rfl).1, ← List.foldl_append, Position.foldl_after_start]

/-- A text that begins with a token and spells one instruction decodes to it, wherever the text was
taken from. -/
theorem decode_piece (file : String) {e : Encoding} {c : Char} {piece : List Char} {i : Instruction}
    (significant : e.isSignificant c = true)
    (spelling : i.Spelling ((c :: piece).filterMap e.kind?)) :
    decode file (Source.ofText e (.ofList (c :: piece))).tokens =
      .ok [{ i with location := some ⟨file, .start⟩ }] := by
  obtain ⟨kind, hkind⟩ := Option.isSome_iff_exists.mp significant
  have htokens : (Source.ofText e (.ofList (c :: piece))).tokens =
      ⟨kind, .start⟩ :: Source.tokensFrom e (Position.start.after c) piece := by
    simp only [Source.tokens, Source.ofText, String.toList_ofList, Source.tokensFrom, hkind]
  refine decode_ok_iff.mpr ⟨[_], (List.append_nil _).symm, .cons ⟨?_, ⟨kind, .start⟩, ?_, rfl⟩ .nil⟩
  · rw [kinds_ofText, String.toList_ofList]
    exact spelling
  · rw [htokens]
    rfl

/-! ## Programs -/

namespace Program

theorem link_getElem? (is : List Instruction) (k : Nat) :
    (link is).instructions[k]? = is[k]?.map (Instruction.resolve (labelTable is)) := by
  rw [link_instructions, List.getElem?_toArray, List.getElem?_map]

theorem place?_link (is : List Instruction) (k : Nat) :
    (link is).place? k = (is[k]?.bind Instruction.location).map Location.position := by
  rw [place?, link_getElem?]
  cases is[k]? with
  | none => rfl
  | some i => rw [Option.map_some, Option.bind_some, Instruction.resolve_eq]; rfl

/-- Where an instruction has a place, the one before it has an earlier place. -/
theorem exists_place_before {file text : String} {e : Encoding} {is : List Instruction}
    (decoded : decode file (Source.ofText e text).tokens = .ok is) {k : Nat} {next : Position}
    (h : (link is).place? (k + 1) = some next) :
    ∃ place, (link is).place? k = some place ∧ place.Before next := by
  rw [place?_link] at h
  cases hj : is[k]? with
  | none =>
    rw [List.getElem?_eq_none (Nat.le_succ_of_le (List.getElem?_eq_none_iff.mp hj))] at h
    cases h
  | some i =>
    obtain ⟨before, c, piece, rest, -, -, hlocation, -, ⟨hnone, -⟩ | ⟨j, hsome, hnext⟩⟩ :=
      exists_piece_of_decode decoded hj
    · rw [hnone] at h
      cases h
    · rw [hsome, Option.bind_some, hnext] at h
      cases h
      refine ⟨.behind before, by rw [place?_link, hj, Option.bind_some, hlocation]; rfl, ?_⟩
      rw [← Position.foldl_after_start, ← Position.foldl_after_start, List.foldl_append]
      exact Position.before_foldl_after _ (List.cons_ne_nil c piece)

/-- The places of instructions come in the order of the text. -/
theorem places_ascending {file text : String} {e : Encoding} {is : List Instruction}
    (decoded : decode file (Source.ofText e text).tokens = .ok is) {k l : Nat}
    {place place' : Position} (hlt : k < l) (hk : (link is).place? k = some place)
    (hl : (link is).place? l = some place') : place.Before place' := by
  induction l generalizing place' with
  | zero => exact absurd hlt (Nat.not_lt_zero k)
  | succ l ih =>
    obtain ⟨mid, hmid, hbefore⟩ := exists_place_before decoded hl
    rcases Nat.lt_succ_iff_lt_or_eq.mp hlt with hlt | rfl
    · exact (ih hlt hmid).trans hbefore
    · rw [hk] at hmid
      cases hmid
      exact hbefore

/-- Every instruction of a text stands behind a part of it. -/
theorem exists_location {file text : String} {e : Encoding} {p : Program}
    (parsed : parse file e text = .ok p) {i : Instruction} (hi : i ∈ p.instructions) :
    ∃ before, before <+: text.toList ∧ i.location = some ⟨file, .behind before⟩ := by
  obtain ⟨is, decoded, rfl⟩ := parse_ok_iff.mp parsed
  obtain ⟨j, hj, rfl⟩ := mem_link.mp hi
  obtain ⟨k, hk⟩ := List.getElem?_of_mem hj
  obtain ⟨before, c, piece, rest, split, -, hlocation, -⟩ := exists_piece_of_decode decoded hk
  refine ⟨before, split ▸ List.prefix_append _ _, ?_⟩
  rw [Instruction.resolve_eq]
  exact hlocation

/-- The places of a program cut its text into its instructions. Every instruction stands at a
significant character of the text, in lines that line feeds end and columns that count characters;
the stretch from there up to the next instruction, or to the end of the text, decodes to that
instruction alone, labels unresolved; and the places come in the order of the text. -/
theorem locations_cut_text {file text : String} {e : Encoding} {p : Program}
    (parsed : parse file e text = .ok p) :
    (∀ (k : Nat) i, p.instructions[k]? = some i →
      ∃ before c rest, text.toList = before ++ c :: rest ∧ e.isSignificant c = true ∧
        i.location = some ⟨file, .behind before⟩ ∧
        ∀ file', decode file'
            (Source.ofText e (stretch text (.behind before) (p.place? (k + 1)))).tokens =
          .ok [{ i.unresolved with location := some ⟨file', .start⟩ }]) ∧
    ∀ (k l : Nat) place place', k < l → p.place? k = some place → p.place? l = some place' →
      place.Before place' := by
  obtain ⟨is, decoded, rfl⟩ := parse_ok_iff.mp parsed
  refine ⟨fun k i hi => ?_, fun _ _ _ _ => places_ascending decoded⟩
  rw [link_getElem?] at hi
  obtain ⟨j, hj, rfl⟩ := Option.map_eq_some_iff.mp hi
  obtain ⟨before, c, piece, rest, htext, hc, hlocation, hspelling, hnext⟩ :=
    exists_piece_of_decode decoded hj
  have hplace : (link is).place? (k + 1) = none ∧ rest = [] ∨
      (link is).place? (k + 1) = some (.behind (before ++ c :: piece)) := by
    rw [place?_link]
    rcases hnext with ⟨hnone, hrest⟩ | ⟨j', hsome, hnext⟩
    · exact .inl ⟨by rw [hnone]; rfl, hrest⟩
    · exact .inr (by rw [hsome, Option.bind_some, hnext]; rfl)
  have hunresolved : j.unresolved = j :=
    (isEncodable_of_decode_ok decoded j (List.mem_of_getElem? hj)).unresolved
  refine ⟨before, c, piece ++ rest, htext, hc, ?_, fun file' => ?_⟩
  · rw [Instruction.resolve_eq]
    exact hlocation
  · rw [stretch_eq htext hplace, decode_piece file' hc hspelling,
      Instruction.unresolved_resolve, hunresolved]

/-- An addition, a comment, and an exit that goes over three lines. -/
theorem comment_in_stretch_of_addition :
    ∃ p i, parse "p.ws" .whitespace "add:\t   then\n\n\nend" = .ok p ∧
      p.instructions[0]? = some i ∧ i.location = some ⟨"p.ws", ⟨1, 5⟩⟩ ∧
      stretch "add:\t   then\n\n\nend" ⟨1, 5⟩ (p.place? 1) = "\t   then" ∧
      decode "cut" (Source.ofText .whitespace "\t   then").tokens =
        .ok [{ i.unresolved with location := some ⟨"cut", .start⟩ }] := by
  have parsed : parse "p.ws" .whitespace "add:\t   then\n\n\nend" = .ok (.ofList
      [⟨.arithmetic, .add, none, some ⟨"p.ws", ⟨1, 5⟩⟩⟩,
        ⟨.flow, .exit, none, some ⟨"p.ws", ⟨1, 13⟩⟩⟩]) := rfl
  obtain ⟨before, c, rest, -, -, hlocation, hstretch⟩ := (locations_cut_text parsed).1 0 _ rfl
  have hplace : (⟨1, 5⟩ : Position) = .behind before :=
    congrArg Location.position (Option.some.inj hlocation)
  refine ⟨_, _, parsed, rfl, rfl, by decide, ?_⟩
  have hcut := hstretch "cut"
  rw [← hplace] at hcut
  exact hcut

end Program

end Whitespace
