import Whitespace.Proofs.Program.Agreement

/-!
# Encodings and comments

A program is what the significant characters of a text spell. Which characters are the significant
ones, and what stands between them, shows in nothing but the places of instructions and of errors: a
text and its mnemonics decode to the same, and an error in the mnemonics at one column is the error
in the text at the significant character of that number.

Results:
1. `move_mnemonics`: the tokens of the mnemonics of a text are those of the text at other places.
2. `decodeAll_mnemonics`: they decode to the same.
3. `encodings_immaterial`: the programs and the failures of a text, of its mnemonics, and of texts
   that differ from it in their comments.
-/

namespace Whitespace

namespace Encoding

def isSignificant (e : Encoding) (c : Char) : Bool :=
  (e.kind? c).isSome

/-- The significant character of this number stands at this place of the text. -/
def Stands (e : Encoding) (text : String) (number : Nat) (position : Position) : Prop :=
  ∃ before c after, text.toList = before ++ c :: after ∧ e.isSignificant c = true ∧
    before.countP e.isSignificant + 1 = number ∧ position = before.foldl Position.after .start

end Encoding

/-! ## Places of tokens in a text -/

theorem getElem?_tokensFrom {e : Encoding} {position : Position} {cs : List Char} {i : Nat}
    {t : Token} (h : (Source.tokensFrom e position cs)[i]? = some t) :
    ∃ before c after, cs = before ++ c :: after ∧ e.isSignificant c = true ∧
      before.countP e.isSignificant = i ∧ t.position = before.foldl Position.after position := by
  obtain ⟨hlt, ht⟩ := List.getElem?_eq_some_iff.mp h
  have hcut := List.take_append_drop i (Source.tokensFrom e position cs)
  rw [List.drop_eq_getElem_cons hlt, ht] at hcut
  obtain ⟨before, behind, rfl, hbefore, -, -, hhead⟩ := exists_split_tokensFrom hcut.symm
  obtain ⟨hposition, c, after, rfl, hkind⟩ := hhead t _ rfl
  refine ⟨before, c, after, rfl, by rw [Encoding.isSignificant, hkind]; rfl, ?_, hposition⟩
  have hlength := congrArg List.length (map_kind_tokensFrom e position before)
  rw [hbefore, List.length_map, List.length_take, List.length_filterMap_eq_countP] at hlength
  exact hlength.symm.trans (Nat.min_eq_left hlt.le)

theorem stands_of_getElem? {e : Encoding} {text : String} {i : Nat} {t : Token}
    (h : (Source.ofText e text).tokens[i]? = some t) : e.Stands text (i + 1) t.position := by
  obtain ⟨before, c, after, hcs, hc, hi, hp⟩ := getElem?_tokensFrom h
  exact ⟨before, c, after, hcs, hc, congrArg (· + 1) hi, hp⟩

/-- Letters stand on one line, side by side. -/
theorem tokensFrom_letters (line : Int) (column : Nat) (tokens : List Token) :
    Source.tokensFrom .stl ⟨line, column⟩ (tokens.map fun t => t.kind.letter) =
      tokens.mapIdx fun i t => ⟨t.kind, ⟨line, (column + i : Nat)⟩⟩ := by
  induction tokens generalizing column with
  | nil => rfl
  | cons t tokens ih =>
    have hkind : Encoding.stl.kind? t.kind.letter = some t.kind := Encoding.stl.kind?_char t.kind
    have hafter : Position.after ⟨line, column⟩ t.kind.letter = ⟨line, (column + 1 : Nat)⟩ := by
      cases t.kind <;> rfl
    simp only [List.map_cons, Source.tokensFrom, hkind, hafter, ih, List.mapIdx_cons]
    simp only [Nat.add_zero, Nat.add_assoc, Nat.add_comm 1]

section

variable (e : Encoding) (text : String)

theorem tokens_mnemonics :
    (Source.ofText .stl (toMnemonics e text)).tokens =
      (Source.ofText e text).tokens.mapIdx fun i t => ⟨t.kind, ⟨1, (1 + i : Nat)⟩⟩ := by
  have hrest : (Source.ofText .stl (toMnemonics e text)).rest =
      (Source.ofText e text).tokens.map fun t => t.kind.letter := String.toList_ofList
  rw [← tokensFrom_letters 1 1, Source.tokens, hrest]
  rfl

/-- The tokens of the mnemonics of a text are those of the text at other places. -/
theorem move_mnemonics :
    ∃ f : Position → Position,
      (∀ (i : Nat) (t : Token), (Source.ofText e text).tokens[i]? = some t →
        f ⟨1, (1 + i : Nat)⟩ = t.position) ∧
      (Source.ofText .stl (toMnemonics e text)).tokens.map (Token.move f) =
        (Source.ofText e text).tokens := by
  rw [tokens_mnemonics]
  generalize (Source.ofText e text).tokens = tokens
  let f (p : Position) : Position := (tokens[p.column.toNat - 1]?.map Token.position).getD .start
  have hf (i : Nat) (t : Token) (h : tokens[i]? = some t) :
      f ⟨1, (1 + i : Nat)⟩ = t.position := by
    have hindex : ((1 + i : Nat) : Int).toNat - 1 = i := by omega
    simp only [f, hindex, h]
    rfl
  refine ⟨f, hf, List.ext_getElem? fun i => ?_⟩
  rw [List.getElem?_map, List.getElem?_mapIdx]
  cases h : tokens[i]? with
  | none => rfl
  | some t =>
    show some (Token.mk t.kind (f ⟨1, (1 + i : Nat)⟩)) = some t
    rw [hf i t h]

theorem kinds_mnemonics :
    (Source.ofText .stl (toMnemonics e text)).tokens.map Token.kind =
      (Source.ofText e text).tokens.map Token.kind := by
  obtain ⟨f, -, hmove⟩ := move_mnemonics e text
  rw [← hmove, List.map_map]
  rfl

theorem toMnemonics_toMnemonics :
    toMnemonics .stl (toMnemonics e text) = toMnemonics e text := by
  have hletters := congrArg (List.map TokenKind.letter) (kinds_mnemonics e text)
  rw [List.map_map, List.map_map] at hletters
  exact congrArg String.ofList hletters

end

/-! ## Decoding -/

section

variable {file file' : String} {e : Encoding} {text : String}

/-- The mnemonics of a text decode to the same instructions, places aside. -/
theorem instructions_mnemonics (file file' : String) (e : Encoding) (text : String) :
    (decodeAll file' (Source.ofText .stl (toMnemonics e text)).tokens).instructions.map
        Instruction.unlocated =
      (decodeAll file (Source.ofText e text).tokens).instructions.map Instruction.unlocated := by
  obtain ⟨f, -, hmove⟩ := move_mnemonics e text
  rw [← hmove, decodeAll_move file', Decoded.move, Program.unlocated_move]

/-- An error at a column of the mnemonics is the error of the text at the significant character of
that number. -/
theorem parse_mnemonics_error {error : DecodeError}
    (h : Program.parse file' .stl (toMnemonics e text) = .error (.malformed error)) :
    ∃ (column : Nat) (position : Position), error.location = ⟨file', ⟨1, column⟩⟩ ∧
      e.Stands text column position ∧
      Program.parse file e text = .error (.malformed ⟨error.fault, file, position⟩) := by
  obtain ⟨f, hf, hmove⟩ := move_mnemonics e text
  have hd := Program.parse_error_iff.mp h
  obtain ⟨t, ht, hlocation⟩ := decode_error_location hd
  rw [tokens_mnemonics] at ht
  obtain ⟨i, hi⟩ := List.mem_iff_getElem?.mp ht
  rw [List.getElem?_mapIdx] at hi
  obtain ⟨s, hs, rfl⟩ := Option.map_eq_some_iff.mp hi
  refine ⟨i + 1, s.position, by rw [hlocation, Nat.add_comm], stands_of_getElem? hs, ?_⟩
  rw [Program.parse_error_iff, ← hmove, decode_move file', hd]
  simp only [Except.map, Except.mapError, DecodeFailure.move, Location.move, hlocation, hf i s hs]

/-- Comments do not matter. -/
theorem parse_comments {text' : String}
    (h : text.toList.filter e.isSignificant = text'.toList.filter e.isSignificant) :
    Program.Alike (Program.parse file e text) (Program.parse file' e text') := by
  have hkinds (cs : List Char) :
      cs.filterMap e.kind? = (cs.filter e.isSignificant).filterMap e.kind? := by
    rw [List.filterMap_filter]
    refine List.filterMap_congr fun c _ => ?_
    cases hk : e.kind? c <;> simp [Encoding.isSignificant, hk]
  exact Program.parse_congr (by rw [hkinds, hkinds text'.toList, h])

end

/-- Encodings and comments are immaterial. A text and its mnemonics have the same program, places
aside, or decoding fails under one name behind the same instructions; an error in the mnemonics is
an error of the text at the significant character of the same number. Texts that differ only in
characters that are no tokens have the same program or fail under one name. Mnemonics are their own
mnemonics. -/
theorem encodings_immaterial (file file' : String) (e : Encoding) (text : String) :
    (Program.Alike (Program.parse file e text) (Program.parse file' .stl (toMnemonics e text)) ∧
      (decodeAll file (Source.ofText e text).tokens).instructions.map Instruction.unlocated =
        (decodeAll file' (Source.ofText .stl (toMnemonics e text)).tokens).instructions.map
          Instruction.unlocated ∧
      ∀ error, Program.parse file' .stl (toMnemonics e text) = .error (.malformed error) →
        ∃ (column : Nat) (position : Position), error.location = ⟨file', ⟨1, column⟩⟩ ∧
          e.Stands text column position ∧
          Program.parse file e text = .error (.malformed ⟨error.fault, file, position⟩)) ∧
    (∀ text', text.toList.filter e.isSignificant = text'.toList.filter e.isSignificant →
      Program.Alike (Program.parse file e text) (Program.parse file' e text')) ∧
    toMnemonics .stl (toMnemonics e text) = toMnemonics e text := by
  refine ⟨⟨?_, (instructions_mnemonics file file' e text).symm, fun _ => parse_mnemonics_error⟩,
    fun _ => parse_comments, toMnemonics_toMnemonics e text⟩
  exact Program.decode_congr (kinds_mnemonics e text).symm

/-- A number without its sign, with comments: the offending character is the third that is
significant. -/
theorem sign_missing_behind_comments :
    (∃ (column : Nat) (position : Position),
      (⟨"<string>", ⟨1, 3⟩⟩ : Location) = ⟨"<string>", ⟨1, column⟩⟩ ∧
        Encoding.whitespace.Stands "a  b\n" column position ∧
        Program.parse "a.ws" .whitespace "a  b\n" =
          .error (.malformed ⟨.signMissing, "a.ws", position⟩)) ∧
    Program.Alike (Program.parse "a.ws" .whitespace "a  b\n")
      (Program.parse "<string>" .whitespace "  \n") :=
  ⟨(encodings_immaterial "a.ws" "<string>" .whitespace "a  b\n").1.2.2
      ⟨.signMissing, "<string>", ⟨1, 3⟩⟩ rfl,
    (encodings_immaterial "a.ws" "<string>" .whitespace "a  b\n").2.1 "  \n" (by decide)⟩

end Whitespace
