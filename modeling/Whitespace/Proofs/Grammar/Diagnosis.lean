import Whitespace.Proofs.Grammar.Continuation

/-!
# What decode errors say

Decoding stops where no complete instruction stands. What is wrong there is one of four things, and
each has its own token to blame. Both can be told from the tokens that are left, without following
the decoder through its code tables.

Results:
1. `LongestCut.of_stops`: a cut is the longest if no instruction stands at the front of what is left.
2. `IllFormed.readInstruction_eq`, `illFormed_of_failed`: an instruction cannot be read exactly where
   the tokens are ill-formed; the failure has the name and the place of what is wrong.
3. `decode_error_classified`: the error of a list of tokens that does not decode.
-/

namespace Whitespace

/-- The tokens are complete instructions, one after the other, and a rest. -/
def Cut (file : String) (tokens : List Token) (instructions : List Instruction)
    (rest : List Token) : Prop :=
  ∃ groups, tokens = groups.flatten ++ rest ∧
    List.Forall₂ (Instruction.SpelledBy file) instructions groups

/-- The complete instructions take as many tokens off the front as is possible. -/
structure LongestCut (file : String) (tokens : List Token) (instructions : List Instruction)
    (rest : List Token) : Prop where
  cut : Cut file tokens instructions rest
  longest : ∀ instructions' rest', Cut file tokens instructions' rest' → rest.length ≤ rest'.length

/-- `IllFormed group name blamed`: no instruction stands at the front of the tokens `group`, the
error about that has the name `name`, and `blamed` is the token where it is reported.

* `loneTab`: a single tab. Every other beginning is the code of a family.
* `commandMissing`: the code of a family and nothing else.
* `commandUnknown`: behind the code of a family, tokens that no command code of the family starts.
  It does not matter whether more tokens could make one of them.
* `signMissing`: a number that begins with a line feed.
* `outOfRange`: a complete number that is no word.
* `unterminated`: an operand, of either kind, without its line feed. -/
inductive IllFormed : List Token → String → Token → Prop
  | loneTab {first : Token} (kind : first.kind = .tab) :
      IllFormed [first] "UnrecognizedFamilyError" first
  | commandMissing {first : Token} {more : List Token} {f : Family}
      (family : StartsWith (first :: more) f.code []) :
      IllFormed (first :: more) "UnrecognizedCommandError" first
  | commandUnknown {group more : List Token} {second : Token} {f : Family}
      (family : StartsWith group f.code (second :: more))
      (command : ∀ c : Command, c.family = f → ¬c.code <+: (second :: more).map Token.kind) :
      IllFormed group "UnrecognizedCommandError" second
  | signMissing {group more : List Token} {sign : Token} {c : Command}
      (codes : StartsWith group (c.family.code ++ c.code) (sign :: more))
      (operand : c.operandKind? = some .number) (kind : sign.kind = .lineFeed) :
      IllFormed group "MalformedOperandError" sign
  | outOfRange {first : Token} {more rest : List Token} {c : Command} {n : Binary.Numeral}
      (codes : StartsWith (first :: more) (c.family.code ++ c.code ++ n.tokens) rest)
      (operand : c.operandKind? = some .number) (range : ¬Word.InRange n.value) :
      IllFormed (first :: more) "MalformedOperandError" first
  | unterminated {first : Token} {more rest : List Token} {c : Command}
      (codes : StartsWith (first :: more) (c.family.code ++ c.code) rest)
      (operand : c.operandKind? ≠ none) (ended : .lineFeed ∉ rest.map Token.kind) :
      IllFormed (first :: more) "UnterminatedOperandError" first

/-! ## Cutting off instructions -/

section

variable {file : String} {tokens rest : List Token} {instructions : List Instruction}

/-- Behind complete instructions nothing is left that another cut does not leave, too, unless one
more instruction stands there. -/
theorem Cut.suffix (h : Cut file tokens instructions rest)
    (stops : ∀ i more, readInstruction file rest ≠ .instruction i more)
    {instructions' : List Instruction} {rest' : List Token}
    (h' : Cut file tokens instructions' rest') : rest <:+ rest' := by
  obtain ⟨groups', ht', hs'⟩ := h'
  induction hs' generalizing tokens instructions with
  | nil =>
    obtain ⟨groups, rfl, -⟩ := h
    exact ⟨groups.flatten, ht'⟩
  | @cons i' group' _ groups' hi' _ ih =>
    have hread' : readInstruction file tokens = .instruction i' (groups'.flatten ++ rest') :=
      readInstruction_group.mpr ⟨group', by rw [ht', List.flatten_cons, List.append_assoc], hi'⟩
    obtain ⟨groups, ht, hs⟩ := h
    cases hs with
    | nil =>
      rw [ht] at hread'
      exact absurd hread' (stops _ _)
    | @cons i group instructions groups hi hs =>
      have hread : readInstruction file tokens = .instruction i (groups.flatten ++ rest) :=
        readInstruction_group.mpr ⟨group, by rw [ht, List.flatten_cons, List.append_assoc], hi⟩
      rw [hread, Reading.instruction.injEq] at hread'
      exact ih ⟨groups, rfl, hs⟩ hread'.2

theorem LongestCut.of_stops (h : Cut file tokens instructions rest)
    (stops : ∀ i more, readInstruction file rest ≠ .instruction i more) :
    LongestCut file tokens instructions rest :=
  ⟨h, fun _ _ h' => (h.suffix stops h').length_le⟩

end

/-! ## What is wrong -/

section

variable {file : String} {group more : List Token} {first : Token}

theorem readBits_eq_none_iff {tokens : List Token} :
    readBits tokens = none ↔ .lineFeed ∉ tokens.map Token.kind := by
  induction tokens with
  | nil => simp [readBits]
  | cons t rest ih =>
    rw [readBits]
    cases hk : t.kind <;> simp [hk, ih]

/-- An operand that is asked for is cut off if no line feed follows. -/
theorem readOperand_of_unterminated (start : Position) {c : Command} {tokens : List Token}
    (operand : c.operandKind? ≠ none) (ended : .lineFeed ∉ tokens.map Token.kind) :
    readOperand c start tokens = .failed .operandCutOff start [] := by
  unfold readOperand
  rcases hk : c.operandKind? with _ | _ | _
  · exact absurd hk operand
  · cases tokens with
    | nil => rfl
    | cons sign digits =>
      rw [List.map_cons, List.mem_cons, not_or] at ended
      simp only [readNumber, if_neg (Ne.symm ended.1), readBits_eq_none_iff.mpr ended.2]
  · simp only [readLabel, readBits_eq_none_iff.mpr ended]

theorem matchFamily_of_loneTab (kind : first.kind = .tab) :
    matchCode Family.codes [] [first] = .cutOff := by
  simp only [matchCode, kind]
  rfl

/-- Every beginning but a single tab is the code of a family. -/
theorem matchFamily_cases (first : Token) (more : List Token) :
    (∃ f rest, matchCode Family.codes [] (first :: more) = .found f rest) ∨
      first.kind = .tab ∧ more = [] := by
  simp only [matchFamily_iff]
  cases hf : first.kind with
  | space => exact .inl ⟨.stack, more, [first], rfl, by simp [hf, Family.code]⟩
  | lineFeed => exact .inl ⟨.flow, more, [first], rfl, by simp [hf, Family.code]⟩
  | tab =>
    cases more with
    | nil => exact .inr ⟨rfl, rfl⟩
    | cons second more =>
      cases hs : second.kind with
      | space =>
        exact .inl ⟨.arithmetic, more, [first, second], rfl, by simp [hf, hs, Family.code]⟩
      | tab => exact .inl ⟨.heap, more, [first, second], rfl, by simp [hf, hs, Family.code]⟩
      | lineFeed => exact .inl ⟨.io, more, [first, second], rfl, by simp [hf, hs, Family.code]⟩

theorem readInstruction_of_readOperand {command : Command} {operands unread : List Token}
    {fault : DecodeFault} {position : Position}
    (codes : StartsWith (first :: more) (command.family.code ++ command.code) operands)
    (operand : readOperand command first.position operands = .failed fault position unread) :
    readInstruction file (first :: more) = .failed (fault.failure ⟨file, position⟩) unread := by
  rw [readInstruction_of_startsWith file codes, operand]
  rfl

/-- Where the tokens are ill-formed no instruction is read, and the failure says why and where. -/
theorem IllFormed.readInstruction_eq {name : String} {blamed : Token}
    (h : IllFormed group name blamed) (file : String) :
    ∃ (fault : DecodeFault) (unread : List Token), fault.name = name ∧
      readInstruction file group = .failed (fault.failure ⟨file, blamed.position⟩) unread := by
  cases h with
  | loneTab kind =>
    exact ⟨.familyCutOff, [], rfl, (ReadsGroup.familyCutOff (matchFamily_of_loneTab kind)).eq⟩
  | @commandMissing _ _ f family =>
    exact ⟨.commandMissing f, [], rfl, (ReadsGroup.commandMissing (matchFamily_iff.mpr family)).eq⟩
  | @commandUnknown _ more _ f family command =>
    obtain ⟨first, _, rfl⟩ := family.exists_cons f.code_ne_nil
    have hf := matchFamily_iff.mpr family
    cases hc : matchCode f.commandCodes [] (blamed :: more) with
    | found c rest =>
      obtain ⟨hfamily, hcode⟩ := matchCommand_iff.mp hc
      exact absurd hcode.isPrefix (command c hfamily)
    | unmatched code rest =>
      exact ⟨.unknownCommand f code, rest, rfl, (ReadsGroup.unknownCommand hf hc).eq⟩
    | cutOff => exact ⟨.commandCutOff f, [], rfl, (ReadsGroup.commandCutOff hf hc).eq⟩
  | @signMissing _ more _ c codes operand kind =>
    obtain ⟨first, _, rfl⟩ := codes.exists_cons c.codes_ne_nil
    refine ⟨.signMissing, more, rfl, readInstruction_of_readOperand codes ?_⟩
    simp only [readOperand, operand, readNumber, kind, ↓reduceIte]
  | @outOfRange _ _ rest c n codes operand range =>
    obtain ⟨operands, hcodes, hn⟩ := StartsWith.append_iff.mp codes
    refine ⟨.numberOutOfRange n.value, rest, rfl, readInstruction_of_readOperand hcodes ?_⟩
    simp only [readOperand, operand, readNumber_of_startsWith _ hn, if_neg range]
  | unterminated codes operand ended =>
    have ho := readOperand_of_unterminated blamed.position operand ended
    exact ⟨.operandCutOff, [], rfl, readInstruction_of_readOperand codes ho⟩

/-- A number with a line feed is refused for its sign or for its value. -/
theorem illFormed_of_numberFailed {c : Command} {operands unread : List Token}
    {fault : DecodeFault} {position : Position}
    (codes : StartsWith (first :: more) (c.family.code ++ c.code) operands)
    (operand : c.operandKind? = some .number) (ended : .lineFeed ∈ operands.map Token.kind)
    (h : readNumber first.position operands = .failed fault position unread) :
    ∃ blamed : Token, position = blamed.position ∧ IllFormed (first :: more) fault.name blamed := by
  cases operands with
  | nil => cases ended
  | cons sign digits =>
    by_cases kind : sign.kind = .lineFeed
    · rw [readNumber, if_pos kind] at h
      cases h
      exact ⟨sign, rfl, .signMissing codes operand kind⟩
    · have hdigits : .lineFeed ∈ digits.map Token.kind :=
        (List.mem_cons.mp ended).resolve_left (Ne.symm kind)
      obtain ⟨read, hread⟩ := Option.ne_none_iff_exists'.mp
        (mt readBits_eq_none_iff.mp (not_not_intro hdigits))
      obtain ⟨n, hn⟩ := exists_numeral kind hread
      rw [readNumber_of_startsWith first.position hn] at h
      by_cases range : Word.InRange n.value
      · rw [if_pos range] at h
        cases h
      · rw [if_neg range] at h
        cases h
        have hall := StartsWith.append_iff.mpr ⟨_, codes, hn⟩
        exact ⟨first, rfl, .outOfRange hall operand range⟩

/-- What is wrong with an operand that cannot be read. -/
theorem illFormed_of_operandFailed {c : Command} {operands unread : List Token}
    {fault : DecodeFault} {position : Position}
    (codes : StartsWith (first :: more) (c.family.code ++ c.code) operands)
    (h : readOperand c first.position operands = .failed fault position unread) :
    ∃ blamed : Token, position = blamed.position ∧ IllFormed (first :: more) fault.name blamed := by
  have operand : c.operandKind? ≠ none := by
    intro hk
    simp only [readOperand, hk] at h
    cases h
  by_cases ended : .lineFeed ∈ operands.map Token.kind
  · rcases hk : c.operandKind? with _ | _ | _
    · exact absurd hk operand
    · simp only [readOperand, hk] at h
      exact illFormed_of_numberFailed codes hk ended h
    · -- A label with a line feed is read.
      obtain ⟨read, hread⟩ := Option.ne_none_iff_exists'.mp
        (mt readBits_eq_none_iff.mp (not_not_intro ended))
      simp only [readOperand, hk, readLabel, hread] at h
      cases h
  · rw [readOperand_of_unterminated _ operand ended] at h
    cases h
    exact ⟨first, rfl, .unterminated codes operand ended⟩

/-- Where no instruction can be read the tokens are ill-formed, as the failure says. -/
theorem illFormed_of_failed {unread : List Token} {failure : DecodeFailure}
    (h : readInstruction file group = .failed failure unread) :
    ∃ (fault : DecodeFault) (blamed : Token),
      failure = fault.failure ⟨file, blamed.position⟩ ∧ IllFormed group fault.name blamed := by
  cases group with
  | nil => cases h
  | cons first more =>
    have hr := readsGroup file first more
    rw [h] at hr
    -- A code table of a family that is left before its end starts no command.
    have unknown {f : Family} {second : Token} {rest : List Token}
        (family : matchCode Family.codes [] (first :: more) = .found f (second :: rest))
        (command : ∀ c unread, matchCode f.commandCodes [] (second :: rest) ≠ .found c unread) :
        IllFormed (first :: more) "UnrecognizedCommandError" second := by
      refine .commandUnknown (matchFamily_iff.mp family) fun c hc hcode => ?_
      obtain ⟨unread, hstarts⟩ := StartsWith.exists_of_prefix hcode
      exact command c unread (matchCommand_iff.mpr ⟨hc, hstarts⟩)
    cases hr with
    | familyCutOff family =>
      rcases matchFamily_cases first more with ⟨f, rest, hf⟩ | ⟨kind, rfl⟩
      · rw [hf] at family
        cases family
      · exact ⟨.familyCutOff, first, rfl, .loneTab kind⟩
    | unknownFamily family =>
      rcases matchFamily_cases first more with ⟨f, rest, hf⟩ | ⟨kind, rfl⟩
      · rw [hf] at family
        cases family
      · rw [matchFamily_of_loneTab kind] at family
        cases family
    | @commandMissing f family =>
      exact ⟨.commandMissing f, first, rfl, .commandMissing (matchFamily_iff.mp family)⟩
    | @commandCutOff f second _ family command =>
      refine ⟨.commandCutOff f, second, rfl, unknown family fun c unread => ?_⟩
      rw [command]
      nofun
    | @unknownCommand f second _ _ code family command =>
      refine ⟨.unknownCommand f code, second, rfl, unknown family fun c unread => ?_⟩
      rw [command]
      nofun
    | operandFailed family command operand =>
      obtain ⟨rfl, hcode⟩ := matchCommand_iff.mp command
      have codes := StartsWith.append_iff.mpr ⟨_, matchFamily_iff.mp family, hcode⟩
      obtain ⟨blamed, rfl, hill⟩ := illFormed_of_operandFailed codes operand
      exact ⟨_, blamed, rfl, hill⟩

end

/-! ## Whole lists of tokens -/

theorem DecodeFault.eq_of_failure_eq_malformed {fault : DecodeFault} {location : Location}
    {error : DecodeError} (h : fault.failure location = .malformed error) :
    error = ⟨fault, location⟩ := by
  cases fault with
  | numberOutOfRange value =>
    simp only [failure] at h
    split at h
    · exact (DecodeFailure.malformed.inj h).symm
    · cases h
  | _ => exact (DecodeFailure.malformed.inj h).symm

/-- Decode errors are classified and placed exactly. If tokens do not decode, and no number has too
many digits to be told of, the instructions before the error are all that can be cut off the front;
the error has the name of what is wrong with the rest, which is one thing only, and it is reported
at the token that is to blame for it. -/
theorem decode_error_classified {file : String} {tokens : List Token}
    (fails : ∀ instructions, decode file tokens ≠ .ok instructions)
    (short : ¬Overlong (tokens.map Token.kind)) :
    ∃ (rest : List Token) (error : DecodeError), rest ≠ [] ∧
      LongestCut file tokens (decodeAll file tokens).instructions rest ∧
      decode file tokens = .error (.malformed error) ∧
      (∀ name, error.fault.name = name ↔ ∃ blamed, IllFormed rest name blamed) ∧
      ∀ name blamed, IllFormed rest name blamed → error.location = ⟨file, blamed.position⟩ := by
  obtain ⟨error, hd⟩ : ∃ error, decode file tokens = .error (.malformed error) := by
    cases hd : decode file tokens with
    | ok instructions => exact absurd hd (fails instructions)
    | error failure =>
      cases failure with
      | malformed error => exact ⟨error, rfl⟩
      | digitLimit => exact absurd ((decode_digitLimit_iff file tokens).mp hd) short
  obtain ⟨instructions, groups, rest, unread, rfl, hgs, hf⟩ := decode_error_iff.mp hd
  have stops : ∀ i more, readInstruction file rest ≠ .instruction i more := by
    intro i more
    rw [hf]
    nofun
  have hinstructions : (decodeAll file (groups.flatten ++ rest)).instructions = instructions := by
    rw [decodeAll_groups hgs, decodeAll_of_failed hf]
    exact List.append_nil _
  -- Whatever is said to be wrong with the rest, it is what the failure says.
  have hunique : ∀ name blamed, IllFormed rest name blamed →
      error.fault.name = name ∧ error.location = ⟨file, blamed.position⟩ := by
    intro name blamed hill
    obtain ⟨fault, unread', rfl, hread⟩ := hill.readInstruction_eq file
    rw [hf, Reading.failed.injEq] at hread
    rw [DecodeFault.eq_of_failure_eq_malformed hread.1.symm]
    exact ⟨rfl, rfl⟩
  obtain ⟨fault, blamed, hfailure, hill⟩ := illFormed_of_failed hf
  refine ⟨rest, error, ?_, ?_, hd, ?_, fun name blamed h => (hunique name blamed h).2⟩
  · rintro rfl
    cases hf
  · rw [hinstructions]
    exact .of_stops ⟨groups, rfl, hgs⟩ stops
  · intro name
    refine ⟨?_, fun ⟨blamed, h⟩ => (hunique name blamed h).1⟩
    rintro rfl
    rw [DecodeFault.eq_of_failure_eq_malformed hfailure.symm]
    exact ⟨blamed, hill⟩

/-- An exit, a comment, and behind the code of the arithmetic family a line feed and a space, with
which none of its commands starts: the error is reported at that line feed, on the second line. -/
theorem unknown_command_classified :
    ∃ (rest : List Token) (blamed : Token) (error : DecodeError),
      LongestCut "p.ws" (Source.ofText .whitespace "\n\n\nadd:\t \n ").tokens
        [⟨.flow, .exit, none, some ⟨"p.ws", ⟨1, 1⟩⟩⟩] rest ∧
      decode "p.ws" (Source.ofText .whitespace "\n\n\nadd:\t \n ").tokens =
        .error (.malformed error) ∧
      IllFormed rest "UnrecognizedCommandError" blamed ∧ blamed.position = ⟨4, 7⟩ ∧
      error.location = ⟨"p.ws", ⟨4, 7⟩⟩ := by
  have hd : decode "p.ws" (Source.ofText .whitespace "\n\n\nadd:\t \n ").tokens =
      .error (.malformed ⟨.unknownCommand .arithmetic [.lineFeed], "p.ws", ⟨4, 7⟩⟩) := rfl
  obtain ⟨rest, error, -, cut, herror, name, place⟩ := decode_error_classified
    (by rw [hd]; nofun) (mt (decode_digitLimit_iff "p.ws" _).mpr (by rw [hd]; nofun))
  obtain rfl : _ = error := DecodeFailure.malformed.inj (Except.error.inj (hd.symm.trans herror))
  obtain ⟨blamed, hill⟩ := (name "UnrecognizedCommandError").mp rfl
  have hplace : (⟨4, 7⟩ : Position) = blamed.position :=
    congrArg Location.position (place _ _ hill)
  exact ⟨rest, blamed, _, cut, hd, hill, hplace.symm, rfl⟩

end Whitespace
