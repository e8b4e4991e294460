import Whitespace.Proofs.Grammar.Decoding

/-!
# Places of tokens

Decoding passes the places of tokens on and does nothing else with them: tokens that are moved to
other places, even in another file, decode to the same instructions or fail in the same way, and what
is reported has moved with them. Hence all that matters for the program of a text are the kinds of
its tokens.

Results:
1. `readInstruction_move`, `decode_move`: decoding moved tokens.
2. `decode_error_location`: an error is reported at one of the tokens.
3. `kinds_ofText`: the kinds of the tokens of a text.
4. `tokensFrom_append`, `exists_split_tokensFrom`: the tokens of two texts one after the other.
-/

namespace Whitespace

/-! ## Moving -/

section

variable (file : String) (f : Position → Position)

def Token.move (t : Token) : Token :=
  { t with position := f t.position }

def Location.move (l : Location) : Location :=
  ⟨file, f l.position⟩

def Instruction.move (i : Instruction) : Instruction :=
  { i with location := i.location.map (Location.move file f) }

def DecodeFailure.move : DecodeFailure → DecodeFailure
  | malformed error => .malformed { error with location := error.location.move file f }
  | digitLimit => .digitLimit

def CodeMatch.move {α : Type} : CodeMatch α → CodeMatch α
  | found value rest => .found value (rest.map (Token.move f))
  | unmatched code rest => .unmatched code (rest.map (Token.move f))
  | cutOff => .cutOff

def OperandReading.move : OperandReading → OperandReading
  | read operand rest => .read operand (rest.map (Token.move f))
  | failed fault position rest => .failed fault (f position) (rest.map (Token.move f))

def Reading.move : Reading → Reading
  | ended => .ended
  | instruction i rest => .instruction (i.move file f) (rest.map (Token.move f))
  | failed failure rest => .failed (failure.move file f) (rest.map (Token.move f))

def Decoded.move (decoded : Decoded) : Decoded where
  instructions := decoded.instructions.map (Instruction.move file f)
  failure := decoded.failure.map (DecodeFailure.move file f)
  rest := decoded.rest.map (Token.move f)
  atEnd := decoded.atEnd

end

section

variable (file : String) {file' : String} {f : Position → Position}

theorem matchCode_move {α : Type} (table : List (Code × α)) (seen : Code) (tokens : List Token) :
    matchCode table seen (tokens.map (Token.move f)) = (matchCode table seen tokens).move f := by
  induction tokens generalizing seen with
  | nil => rfl
  | cons t rest ih =>
    have hk : (t.move f).kind = t.kind := rfl
    simp only [List.map_cons, matchCode, hk]
    split
    · rfl
    · split
      · exact ih _
      · rfl

theorem readBits_move (tokens : List Token) :
    readBits (tokens.map (Token.move f)) =
      (readBits tokens).map fun (bits, rest) => (bits, rest.map (Token.move f)) := by
  induction tokens with
  | nil => rfl
  | cons t rest ih =>
    have hk : (t.move f).kind = t.kind := rfl
    simp only [List.map_cons, readBits, hk, ih]
    cases t.kind <;> simp only [Option.map_some, Option.map_map] <;> rfl

theorem readNumber_move (start : Position) (tokens : List Token) :
    readNumber (f start) (tokens.map (Token.move f)) = (readNumber start tokens).move f := by
  cases tokens with
  | nil => rfl
  | cons sign rest =>
    have hk : (sign.move f).kind = sign.kind := rfl
    simp only [List.map_cons, readNumber, hk, readBits_move]
    split
    · rfl
    · cases readBits rest with
      | none => rfl
      | some read =>
        simp only [Option.map_some]
        generalize (if sign.kind = .tab then -(bitsValue read.1 : Int) else bitsValue read.1) = value
        split <;> rfl

theorem readOperand_move (command : Command) (start : Position) (tokens : List Token) :
    readOperand command (f start) (tokens.map (Token.move f)) =
      (readOperand command start tokens).move f := by
  unfold readOperand
  cases command.operandKind? with
  | none => rfl
  | some kind =>
    cases kind with
    | number => exact readNumber_move start tokens
    | label =>
      simp only [readLabel, readBits_move]
      cases readBits tokens <;> rfl

theorem DecodeFault.failure_move (fault : DecodeFault) (l : Location) :
    fault.failure (l.move file' f) = (fault.failure l).move file' f := by
  cases fault with
  | numberOutOfRange value =>
    simp only [failure]
    split <;> rfl
  | _ => rfl

/-- An instruction that is read from moved tokens has moved with them. -/
theorem readInstruction_move (tokens : List Token) :
    readInstruction file' (tokens.map (Token.move f)) =
      (readInstruction file tokens).move file' f := by
  have hfail (fault : DecodeFault) (position : Position) :
      fault.failure ⟨file', f position⟩ = (fault.failure ⟨file, position⟩).move file' f :=
    fault.failure_move ⟨file, position⟩
  cases tokens with
  | nil => rfl
  | cons first rest =>
    have hfamily := matchCode_move (f := f) Family.codes [] (first :: rest)
    simp only [List.map_cons] at hfamily ⊢
    simp only [readInstruction, hfamily]
    cases matchCode Family.codes [] (first :: rest) with
    | cutOff => exact congrArg (Reading.failed · []) (hfail _ first.position)
    | unmatched code rest => exact congrArg (Reading.failed · _) (hfail _ first.position)
    | found family rest =>
      cases rest with
      | nil => exact congrArg (Reading.failed · []) (hfail _ first.position)
      | cons second rest =>
        have hcommand := matchCode_move (f := f) family.commandCodes [] (second :: rest)
        simp only [List.map_cons] at hcommand
        simp only [CodeMatch.move, List.map_cons, hcommand]
        cases matchCode family.commandCodes [] (second :: rest) with
        | cutOff => exact congrArg (Reading.failed · []) (hfail _ second.position)
        | unmatched code rest => exact congrArg (Reading.failed · _) (hfail _ second.position)
        | found command rest =>
          have hoperand := readOperand_move (f := f) command first.position rest
          simp only [show (first.move f).position = f first.position from rfl,
            hoperand]
          cases readOperand command first.position rest with
          | read operand rest => rfl
          | failed fault position rest => exact congrArg (Reading.failed · _) (hfail _ position)

theorem DecodeFailure.atEnd_move (failure : DecodeFailure) :
    (failure.move file' f).atEnd = failure.atEnd := by
  cases failure <;> rfl

theorem decodeUpTo_move (count : Nat) (tokens : List Token) :
    decodeUpTo file' count (tokens.map (Token.move f)) =
      (decodeUpTo file count tokens).move file' f := by
  induction count generalizing tokens with
  | zero => rfl
  | succ count ih =>
    simp only [decodeUpTo, readInstruction_move file]
    cases readInstruction file tokens with
    | ended => rfl
    | failed failure rest => simp only [Reading.move, failure.atEnd_move]; rfl
    | instruction i rest =>
      simp only [Reading.move, ih]
      rfl

theorem decodeAll_move (tokens : List Token) :
    decodeAll file' (tokens.map (Token.move f)) = (decodeAll file tokens).move file' f := by
  rw [decodeAll, decodeAll, List.length_map, decodeUpTo_move file]

/-- Moved tokens decode to the instructions that they decode to where they are, or fail as they do
there; instructions and failures have moved with them. -/
theorem decode_move (tokens : List Token) :
    decode file' (tokens.map (Token.move f)) =
      ((decode file tokens).map (List.map (Instruction.move file' f))).mapError
        (DecodeFailure.move file' f) := by
  simp only [decode, decodeAll_move file, Decoded.move]
  cases (decodeAll file tokens).failure <;> rfl

end

/-- An error is reported at one of the tokens. -/
theorem decode_error_location {file : String} {tokens : List Token} {error : DecodeError}
    (h : decode file tokens = .error (.malformed error)) :
    ∃ t ∈ tokens, error.location = ⟨file, t.position⟩ := by
  -- If every place but those of the tokens moves, no token does, and so the error does not.
  let f (p : Position) : Position :=
    if ∃ t ∈ tokens, t.position = p then p else ⟨p.line + 1, p.column⟩
  have hstay : tokens.map (Token.move f) = tokens := by
    refine (List.map_congr_left fun t ht => ?_).trans (List.map_id tokens)
    show Token.mk t.kind (f t.position) = t
    rw [show f t.position = t.position from if_pos ⟨t, ht, rfl⟩]
  have hmove : decode file (tokens.map (Token.move f)) = _ := decode_move file tokens
  rw [hstay, h] at hmove
  have hlocation : error.location = ⟨file, f error.location.position⟩ :=
    congrArg DecodeError.location (DecodeFailure.malformed.inj (Except.error.inj hmove))
  by_cases hp : ∃ t ∈ tokens, t.position = error.location.position
  · obtain ⟨t, ht, hposition⟩ := hp
    have hf : f error.location.position = t.position :=
      (if_pos ⟨t, ht, hposition⟩).trans hposition.symm
    exact ⟨t, ht, by rw [hlocation, ← hf, ← hlocation]⟩
  · have hf : f error.location.position = ⟨error.location.position.line + 1, _⟩ := if_neg hp
    have hline := congrArg (fun l => l.position.line) hlocation
    simp only [hf] at hline
    omega

/-! ## Texts -/

theorem map_kind_tokensFrom (encoding : Encoding) (position : Position) (cs : List Char) :
    (Source.tokensFrom encoding position cs).map Token.kind = cs.filterMap encoding.kind? := by
  induction cs generalizing position with
  | nil => rfl
  | cons c rest ih =>
    rw [Source.tokensFrom, List.filterMap_cons]
    cases encoding.kind? c with
    | none => exact ih _
    | some kind => exact congrArg (kind :: ·) (ih _)

theorem kinds_ofText (encoding : Encoding) (text : String) :
    (Source.ofText encoding text).tokens.map Token.kind =
      text.toList.filterMap encoding.kind? :=
  map_kind_tokensFrom encoding .start text.toList

theorem tokensFrom_append (encoding : Encoding) (position : Position) (cs cs' : List Char) :
    Source.tokensFrom encoding position (cs ++ cs') =
      Source.tokensFrom encoding position cs ++
        Source.tokensFrom encoding (cs.foldl Position.after position) cs' := by
  induction cs generalizing position with
  | nil => rfl
  | cons c rest ih =>
    simp only [List.cons_append, Source.tokensFrom, List.foldl_cons]
    cases encoding.kind? c with
    | none => exact ih _
    | some kind => exact congrArg (_ :: ·) (ih _)

/-- A cut of the tokens of a text is a cut of the text, right before the first token behind the cut,
or at the end of the text if there is none. -/
theorem exists_split_tokensFrom {encoding : Encoding} {position : Position} {cs : List Char}
    {tokens tokens' : List Token}
    (h : Source.tokensFrom encoding position cs = tokens ++ tokens') :
    ∃ before behind, cs = before ++ behind ∧
      Source.tokensFrom encoding position before = tokens ∧
      Source.tokensFrom encoding (before.foldl Position.after position) behind = tokens' ∧
      (tokens' = [] → behind = []) ∧
      ∀ t more, tokens' = t :: more → t.position = before.foldl Position.after position ∧
        ∃ c rest, behind = c :: rest ∧ encoding.kind? c = some t.kind := by
  induction cs generalizing position tokens with
  | nil =>
    obtain ⟨rfl, rfl⟩ := List.append_eq_nil_iff.mp h.symm
    exact ⟨[], [], rfl, rfl, rfl, fun _ => rfl, nofun⟩
  | cons c rest ih =>
    cases hk : encoding.kind? c with
    | none =>
      simp only [Source.tokensFrom, hk] at h
      obtain ⟨before, behind, rfl, hbefore, hbehind, hnil, hhead⟩ := ih h
      exact ⟨c :: before, behind, rfl, by simpa only [Source.tokensFrom, hk], hbehind, hnil, hhead⟩
    | some kind =>
      simp only [Source.tokensFrom, hk] at h
      cases tokens with
      | nil =>
        rw [List.nil_append] at h
        refine ⟨[], c :: rest, rfl, rfl, ?_, ?_, ?_⟩
        · simpa only [List.foldl_nil, Source.tokensFrom, hk] using h
        · rintro rfl
          cases h
        · rintro t more rfl
          obtain ⟨rfl, -⟩ := List.cons.inj h
          exact ⟨rfl, c, rest, rfl, hk⟩
      | cons t tokens =>
        obtain ⟨rfl, hrest⟩ := List.cons.inj h
        obtain ⟨before, behind, rfl, hbefore, hbehind, hnil, hhead⟩ := ih hrest
        exact ⟨c :: before, behind, rfl, by simp only [Source.tokensFrom, hk, hbefore], hbehind,
          hnil, hhead⟩

end Whitespace
