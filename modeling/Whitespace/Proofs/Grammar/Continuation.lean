import Whitespace.Proofs.Grammar.Failure

/-!
# Tokens that go on

Decoding looks at no token beyond the group that it reads. So tokens that follow change nothing
about what stands before them: instructions stay as they are, and so does a failure that did not
come from the end of the tokens. A group that the end of the tokens has cut off can still become an
instruction, unless it is a number that is no word already.

Results:
1. `readInstruction_append`: what was read stays, unless the tokens had ended.
2. `exists_spelling_of_cutOff`: what is cut off is the beginning of an instruction, or of a number
   that is no word.
3. `decode_goes_on`: what is decoded of tokens that go on.
-/

namespace Whitespace

/-! ## What was read before more tokens -/

theorem StartsWith.append {tokens rest : List Token} {kinds : List TokenKind}
    (h : StartsWith tokens kinds rest) (more : List Token) :
    StartsWith (tokens ++ more) kinds (rest ++ more) := by
  obtain ⟨used, rfl, hu⟩ := h
  exact ⟨used, List.append_assoc .., hu⟩

section

variable (more : List Token)

/-- The match, if more tokens follow. -/
def CodeMatch.followed {α : Type} : CodeMatch α → CodeMatch α
  | found value rest => .found value (rest ++ more)
  | unmatched code rest => .unmatched code (rest ++ more)
  | cutOff => .cutOff

def OperandReading.followed : OperandReading → OperandReading
  | read operand rest => .read operand (rest ++ more)
  | failed fault position rest => .failed fault position (rest ++ more)

def Reading.followed : Reading → Reading
  | ended => .ended
  | instruction i rest => .instruction i (rest ++ more)
  | failed failure rest => .failed failure (rest ++ more)

theorem matchCode_append {α : Type} {table : List (Code × α)} {seen : Code} {tokens : List Token}
    (h : matchCode table seen tokens ≠ .cutOff) :
    matchCode table seen (tokens ++ more) = (matchCode table seen tokens).followed more := by
  induction tokens generalizing seen with
  | nil => exact absurd rfl h
  | cons t rest ih =>
    simp only [List.cons_append, matchCode] at h ⊢
    split
    · rfl
    · next hl =>
      simp only [hl] at h
      split
      · next hany =>
        simp only [hany, ↓reduceIte] at h
        exact ih h
      · rfl

theorem readNumber_append {start : Position} {tokens : List Token}
    (h : ∀ position rest, readNumber start tokens ≠ .failed .operandCutOff position rest) :
    readNumber start (tokens ++ more) = (readNumber start tokens).followed more := by
  cases tokens with
  | nil => exact absurd rfl (h _ _)
  | cons sign rest =>
    by_cases hs : sign.kind = .lineFeed
    · simp only [List.cons_append, readNumber, if_pos hs]
      rfl
    · cases hb : readBits rest with
      | none => simp [readNumber, hs, hb] at h
      | some read =>
        obtain ⟨n, hn⟩ := exists_numeral hs hb
        rw [readNumber_of_startsWith start hn, readNumber_of_startsWith start (hn.append more)]
        split <;> rfl

theorem readOperand_append {command : Command} {start : Position} {tokens : List Token}
    (h : ∀ position rest,
      readOperand command start tokens ≠ .failed .operandCutOff position rest) :
    readOperand command start (tokens ++ more) =
      (readOperand command start tokens).followed more := by
  unfold readOperand at h ⊢
  generalize command.operandKind? = kind at h ⊢
  rcases kind with _ | _ | _
  case none => rfl
  case some.number => exact readNumber_append more h
  case some.label =>
    unfold readLabel at h ⊢
    cases hb : readBits tokens with
    | none => simp [hb] at h
    | some read =>
      have happend : readBits (tokens ++ more) = some (read.1, read.2 ++ more) :=
        readBits_iff.mpr ((readBits_iff.mp hb).append more)
      simp only [happend]
      rfl

theorem DecodeFault.atEnd_failure (fault : DecodeFault) (location : Location) :
    (fault.failure location).atEnd = fault.atEnd := by
  cases fault with
  | numberOutOfRange value =>
    simp only [failure]
    split <;> rfl
  | _ => rfl

/-- What was read stays if more tokens follow, unless the tokens had ended. -/
theorem readInstruction_append {file : String} {tokens : List Token} (hne : tokens ≠ [])
    (h : ∀ failure rest, readInstruction file tokens = .failed failure rest →
      failure.atEnd = false) :
    readInstruction file (tokens ++ more) = (readInstruction file tokens).followed more := by
  obtain ⟨first, rest, rfl⟩ := List.exists_cons_of_ne_nil hne
  have hr := readsGroup file first rest
  rw [List.cons_append]
  generalize readInstruction file (first :: rest) = reading at h hr ⊢
  have append {α : Type} {table : List (Code × α)} {tokens : List Token} {found : CodeMatch α}
      (hm : matchCode table [] tokens = found) (hne : found ≠ .cutOff) :
      matchCode table [] (tokens ++ more) = found.followed more := by
    rw [← hm]
    exact matchCode_append more (by rwa [hm])
  refine ReadsGroup.eq ?_
  cases hr with
  | familyCutOff | commandMissing | commandCutOff => cases h _ _ rfl
  | unknownFamily family => exact .unknownFamily (append family nofun)
  | unknownCommand family command =>
    exact .unknownCommand (append family nofun) (append command nofun)
  | @operandFailed _ _ _ command' rest' fault _ _ family command operand =>
    refine .operandFailed (append family nofun) (append command nofun) ?_
    rw [readOperand_append more, operand]
    · rfl
    · rintro position rest' ho
      rw [operand] at ho
      cases ho
      cases h _ _ rfl
  | instruction family command operand =>
    refine .instruction (append family nofun) (append command nofun) ?_
    rw [readOperand_append more (by rw [operand]; nofun), operand]
    rfl

end

/-! ## What the end of the tokens cuts off -/

namespace Binary.Numeral

/-- The tokens of a numeral that has not ended yet: its sign and its bits. -/
def opening (n : Numeral) : List TokenKind :=
  .ofBit n.negative :: n.bits.map .ofBit

theorem magnitude_le_of_prefix {n m : Numeral} (h : n.bits <+: m.bits) :
    n.magnitude ≤ m.magnitude := by
  obtain ⟨bits, hbits⟩ := h
  rw [← n.bitsValue_eq_magnitude, ← m.bitsValue_eq_magnitude, ← hbits]
  clear hbits
  induction bits using List.reverseRecOn with
  | nil => rw [List.append_nil]
  | append_singleton bits bit ih =>
    rw [← List.append_assoc, bitsValue_append]
    omega

/-- With more bits, a number that is no word is no word either. -/
theorem not_inRange_of_prefix {n m : Numeral} (sign : n.negative = m.negative)
    (bits : n.bits <+: m.bits) (h : ¬Word.InRange n.value) : ¬Word.InRange m.value := by
  have hle := magnitude_le_of_prefix bits
  unfold Word.InRange Word.minValue Word.maxValue value at h ⊢
  rw [← sign]
  cases hn : n.negative <;> simp only [hn, Bool.false_eq_true, ↓reduceIte] at h ⊢ <;> omega

theorem lineFeed_notMem_opening (n : Numeral) : TokenKind.lineFeed ∉ n.opening := by
  have hbit (bit : Bool) : TokenKind.lineFeed ≠ .ofBit bit := by
    cases bit <;> decide
  simp [opening, hbit, eq_comm]

/-- Tokens that start with one numeral in full and with another up to its last bit: the bits of the
second are the first of the first. -/
theorem prefix_of_opening {n m : Numeral} {kinds : List TokenKind} (hn : n.opening <+: kinds)
    (hm : m.tokens <+: kinds) : n.negative = m.negative ∧ n.bits <+: m.bits := by
  have hopening : n.opening <+: m.opening := by
    rcases List.prefix_or_prefix_of_prefix hn hm with h | h
    · rcases List.prefix_concat_iff.mp (show n.opening <+: m.opening ++ [.lineFeed] from h)
        with h | h
      · exact absurd (by rw [h]; simp) n.lineFeed_notMem_opening
      · exact h
    · exact absurd (h.subset (by simp [tokens])) n.lineFeed_notMem_opening
  have hinj : Function.Injective TokenKind.ofBit := by decide
  obtain ⟨hsign, hbits⟩ := List.cons_prefix_cons.mp hopening
  exact ⟨hinj hsign, (List.prefix_map_iff_of_injective hinj).mp hbits⟩

end Binary.Numeral

/-- A match that the end of the tokens cuts off stands inside a code of the table. -/
theorem exists_code_of_cutOff {α : Type} {table : List (Code × α)} {seen : Code}
    {tokens : List Token} (inside : ∃ entry ∈ table, seen <+: entry.1)
    (h : matchCode table seen tokens = .cutOff) :
    ∃ entry ∈ table, seen ++ tokens.map Token.kind <+: entry.1 := by
  induction tokens generalizing seen with
  | nil => simpa using inside
  | cons t rest ih =>
    rw [matchCode] at h
    split at h
    · cases h
    · split at h
      · next hany =>
        obtain ⟨entry, hmem, hprefix⟩ := List.any_eq_true.mp hany
        simpa using ih ⟨entry, hmem, List.isPrefixOf_iff_prefix.mp hprefix⟩ h
      · cases h

theorem exists_command (f : Family) : ∃ c : Command, c.family = f := by
  cases f
  exacts [⟨.push, rfl⟩, ⟨.add, rfl⟩, ⟨.store, rfl⟩, ⟨.mark, rfl⟩, ⟨.readNumber, rfl⟩]

/-- Every command can be given an operand. -/
theorem Command.exists_spelling (c : Command) :
    ∃ (i : Instruction) (operand : List TokenKind),
      i.Spelling (c.family.code ++ c.code ++ operand) := by
  obtain ⟨operand, kinds, h⟩ :
      ∃ operand kinds, Operand.Spelling c.operandKind? operand kinds := by
    rcases c.operandKind? with _ | _ | _
    · exact ⟨_, _, .none⟩
    · exact ⟨_, _, .number ⟨false, []⟩ rfl (by decide)⟩
    · exact ⟨_, _, .label [] rfl⟩
  exact ⟨⟨c.family, c, operand, none⟩, kinds, rfl, kinds, h, rfl⟩

theorem kinds_of_readBits_eq_none {tokens : List Token} (h : readBits tokens = none) :
    ∃ bits : List Bool, tokens.map Token.kind = bits.map .ofBit := by
  induction tokens with
  | nil => exact ⟨[], rfl⟩
  | cons t rest ih =>
    rw [readBits] at h
    split at h
    · cases h
    · next hk =>
      obtain ⟨bits, hbits⟩ := ih (Option.map_eq_none_iff.mp h)
      exact ⟨true :: bits, by rw [List.map_cons, hk, hbits]; rfl⟩
    · next hk =>
      obtain ⟨bits, hbits⟩ := ih (Option.map_eq_none_iff.mp h)
      exact ⟨false :: bits, by rw [List.map_cons, hk, hbits]; rfl⟩

/-- A number that the end of the tokens cuts off ends with more tokens, unless it is no word
already. -/
theorem exists_spelling_of_numberCutOff {start position : Position} {tokens rest : List Token}
    {fault : DecodeFault} (h : readNumber start tokens = .failed fault position rest)
    (ended : fault.atEnd = true) :
    (∃ operand more, Operand.Spelling (some .number) operand (tokens.map Token.kind ++ more)) ∨
      ∃ n : Binary.Numeral, ¬Word.InRange n.value ∧ tokens.map Token.kind = n.opening := by
  cases tokens with
  | nil => exact .inl ⟨_, _, .number ⟨false, []⟩ rfl (by decide)⟩
  | cons sign digits =>
    have hs : sign.kind ≠ .lineFeed := by
      intro hs
      rw [readNumber, if_pos hs] at h
      cases h
      cases ended
    cases hb : readBits digits with
    | some read =>
      obtain ⟨n, hn⟩ := exists_numeral hs hb
      rw [readNumber_of_startsWith start hn] at h
      split at h
      · cases h
      · cases h
        cases ended
    | none =>
      obtain ⟨bits, hbits⟩ := kinds_of_readBits_eq_none hb
      have hopening : (sign :: digits).map Token.kind =
          (⟨sign.kind = .tab, bits⟩ : Binary.Numeral).opening := by
        rw [List.map_cons, hbits]
        exact congrArg (· :: bits.map TokenKind.ofBit) (kind_eq_ofBit hs)
      rw [hopening]
      by_cases hr : Word.InRange (⟨sign.kind = .tab, bits⟩ : Binary.Numeral).value
      · exact .inl ⟨_, [.lineFeed], .number _ rfl hr⟩
      · exact .inr ⟨_, hr, rfl⟩

/-- An operand that the end of the tokens cuts off ends with more tokens, unless it is a number that
is no word already. -/
theorem exists_spelling_of_operandCutOff {command : Command} {start position : Position}
    {tokens rest : List Token} {fault : DecodeFault}
    (h : readOperand command start tokens = .failed fault position rest)
    (ended : fault.atEnd = true) :
    (∃ operand more, Operand.Spelling command.operandKind? operand
        (tokens.map Token.kind ++ more)) ∨
      ∃ n : Binary.Numeral, command.operandKind? = some .number ∧ ¬Word.InRange n.value ∧
        tokens.map Token.kind = n.opening := by
  unfold readOperand at h
  rcases hkind : command.operandKind? with _ | _ | _ <;> rw [hkind] at h
  case none => cases h
  case some.number =>
    rcases exists_spelling_of_numberCutOff h ended with completed | ⟨n, hr, hn⟩
    · exact .inl completed
    · exact .inr ⟨n, rfl, hr, hn⟩
  case some.label =>
    unfold readLabel at h
    cases hb : readBits tokens with
    | some read => simp [hb] at h
    | none =>
      obtain ⟨bits, hbits⟩ := kinds_of_readBits_eq_none hb
      rw [hbits]
      exact .inl ⟨_, [.lineFeed], .label bits rfl⟩

/-- Inside the codes of a command the tokens go on with the rest of the codes and an operand. -/
theorem exists_spelling_of_codes {command : Command} {kinds : List TokenKind}
    (hk : kinds <+: command.family.code ++ command.code) :
    ∃ (i : Instruction) (more : List TokenKind), i.Spelling (kinds ++ more) := by
  obtain ⟨rest, hrest⟩ := hk
  obtain ⟨i, operand, hi⟩ := command.exists_spelling
  refine ⟨i, rest ++ operand, ?_⟩
  rwa [← List.append_assoc, hrest]

/-- A group that the end of the tokens cuts off becomes an instruction with more tokens, unless its
operand is a number that is no word already. -/
theorem exists_spelling_of_cutOff {file : String} {tokens unread : List Token}
    {failure : DecodeFailure} (h : readInstruction file tokens = .failed failure unread)
    (ended : failure.atEnd = true) :
    (∃ (i : Instruction) (more : List TokenKind), i.Spelling (tokens.map Token.kind ++ more)) ∨
      ∃ (command : Command) (n : Binary.Numeral), command.operandKind? = some .number ∧
        ¬Word.InRange n.value ∧
        tokens.map Token.kind = command.family.code ++ command.code ++ n.opening := by
  cases tokens with
  | nil => cases h
  | cons first more =>
    have hr := readsGroup file first more
    rw [h] at hr
    cases hr with
    | unknownFamily | unknownCommand => cases ended
    | familyCutOff family =>
      obtain ⟨⟨code, f⟩, hmem, hcode⟩ :=
        exists_code_of_cutOff ⟨_, List.mem_cons_self, List.nil_prefix⟩ family
      cases Family.mem_codes_iff.mp hmem
      obtain ⟨command, rfl⟩ := exists_command f
      exact .inl (exists_spelling_of_codes (hcode.trans (List.prefix_append _ _)))
    | @commandMissing f family =>
      obtain ⟨used, hused, hkinds⟩ := matchFamily_iff.mp family
      obtain ⟨command, rfl⟩ := exists_command f
      rw [hused, List.append_nil, hkinds]
      exact .inl (exists_spelling_of_codes (List.prefix_append _ _))
    | @commandCutOff f second rest family command =>
      obtain ⟨used, hused, hkinds⟩ := matchFamily_iff.mp family
      obtain ⟨c, hc⟩ := exists_command f
      obtain ⟨⟨code, c⟩, hmem, hcode⟩ := exists_code_of_cutOff
        ⟨(c.code, c), Family.mem_commandCodes_iff.mpr ⟨hc, rfl⟩, List.nil_prefix⟩ command
      obtain ⟨rfl, rfl⟩ := Family.mem_commandCodes_iff.mp hmem
      rw [hused, List.map_append, hkinds]
      exact .inl (exists_spelling_of_codes ((List.prefix_append_right_inj _).mpr hcode))
    | @operandFailed f second rest operands _ c fault position family command operand =>
      obtain ⟨rfl, hcode⟩ := matchCommand_iff.mp command
      obtain ⟨used, hused, hkinds⟩ :=
        StartsWith.append_iff.mpr ⟨_, matchFamily_iff.mp family, hcode⟩
      rw [fault.atEnd_failure] at ended
      rw [hused, List.map_append, hkinds]
      rcases exists_spelling_of_operandCutOff operand ended with ⟨read, more, hs⟩ | ⟨n, hk, hr, hn⟩
      · refine .inl ⟨⟨c.family, c, read, none⟩, more, rfl, _, hs, ?_⟩
        rw [List.append_assoc]
      · exact .inr ⟨c, n, hk, hr, by rw [hn]⟩

/-- A number that is no word already is not read, whatever follows it. -/
theorem readInstruction_outside {file : String} {tokens operands : List Token} {command : Command}
    {n : Binary.Numeral} (codes : StartsWith tokens (command.family.code ++ command.code) operands)
    (kind : command.operandKind? = some .number) (outside : ¬Word.InRange n.value)
    (h : n.opening <+: operands.map Token.kind) :
    ∃ failure rest, readInstruction file tokens = .failed failure rest := by
  obtain ⟨first, more, rfl⟩ := codes.exists_cons command.codes_ne_nil
  rw [readInstruction_of_startsWith file codes]
  cases ho : readOperand command first.position operands with
  | failed fault position rest => exact ⟨_, rest, rfl⟩
  | read operand rest =>
    rw [readOperand, kind] at ho
    obtain ⟨m, hrange, -, used, rfl, hm⟩ := readNumber_sound ho
    have hprefix : m.tokens <+: (used ++ rest).map Token.kind := by
      rw [List.map_append, hm]
      exact List.prefix_append ..
    obtain ⟨sign, bits⟩ := Binary.Numeral.prefix_of_opening h hprefix
    exact absurd hrange (Binary.Numeral.not_inRange_of_prefix sign bits outside)

/-! ## Whole lists of tokens -/

/-- Behind instructions that are spelled in full, the tokens end inside a number operand whose sign
and bits so far are no word. -/
def CutOffOutside (kinds : List TokenKind) : Prop :=
  ∃ (instructions : List Instruction) (before : List TokenKind) (command : Command)
    (n : Binary.Numeral),
    Spells instructions before ∧ command.operandKind? = some .number ∧ ¬Word.InRange n.value ∧
      kinds = before ++ (command.family.code ++ command.code ++ n.opening)

def Decoded.after (instructions : List Instruction) (decoded : Decoded) : Decoded :=
  { decoded with instructions := instructions ++ decoded.instructions }

def Decoded.followed (more : List Token) (decoded : Decoded) : Decoded :=
  { decoded with rest := decoded.rest ++ more }

theorem Spells.append {is js : List Instruction} {kinds kinds' : List TokenKind}
    (h : Spells is kinds) (h' : Spells js kinds') : Spells (is ++ js) (kinds ++ kinds') := by
  obtain ⟨pieces, rfl, hs⟩ := h
  obtain ⟨pieces', rfl, hs'⟩ := h'
  exact ⟨pieces ++ pieces', List.flatten_append.symm, List.rel_append hs hs'⟩

theorem decodeAll_append_of_ok {file : String} {tokens : List Token}
    {instructions : List Instruction} (h : decode file tokens = .ok instructions)
    (more : List Token) :
    decodeAll file (tokens ++ more) = (decodeAll file more).after instructions := by
  obtain ⟨groups, rfl, hgs⟩ := decode_ok_iff.mp h
  exact decodeAll_groups hgs more

theorem decodeAll_append_of_error {file : String} {tokens : List Token} {failure : DecodeFailure}
    (h : decode file tokens = .error failure) (inside : failure.atEnd = false)
    (more : List Token) :
    decodeAll file (tokens ++ more) = (decodeAll file tokens).followed more := by
  obtain ⟨instructions, groups, rest, unread, rfl, hgs, hf⟩ := decode_error_iff.mp h
  have hne : rest ≠ [] := by
    rintro rfl
    cases hf
  have hmore : readInstruction file (rest ++ more) = .failed failure (unread ++ more) := by
    rw [readInstruction_append more hne, hf]
    · rfl
    · intro other unread' ho
      rw [hf] at ho
      cases ho
      exact inside
  rw [List.append_assoc, decodeAll_groups hgs, decodeAll_groups hgs, decodeAll_of_failed hf,
    decodeAll_of_failed hmore]
  rfl

/-- Tokens that were cut off go on to instructions exactly if they do not end inside a number that
is no word already. -/
theorem exists_decode_append_iff {file : String} {tokens : List Token} {failure : DecodeFailure}
    (h : decode file tokens = .error failure) (ended : failure.atEnd = true) :
    (∃ more instructions, decode file (tokens ++ more) = .ok instructions) ↔
      ¬CutOffOutside (tokens.map Token.kind) := by
  constructor
  · rintro ⟨more, decoded, hd⟩ ⟨instructions, before, command, n, hs, kind, outside, hkinds⟩
    obtain ⟨done, rest, rfl, rfl, hrest⟩ := List.map_eq_append_iff.mp hkinds
    obtain ⟨codes, operands, rfl, hcodes, hn⟩ := List.map_eq_append_iff.mp hrest
    obtain ⟨located, hl, -⟩ := decode_ok_of_spells file hs
    obtain ⟨groups, rfl, hgs⟩ := decode_ok_iff.mp hl
    have hstart : StartsWith (codes ++ operands ++ more) (command.family.code ++ command.code)
        (operands ++ more) := ⟨codes, List.append_assoc .., hcodes⟩
    have hopening : n.opening <+: (operands ++ more).map Token.kind := by
      rw [List.map_append, hn]
      exact List.prefix_append ..
    obtain ⟨failure, unread, hf⟩ :
        ∃ failure unread, readInstruction file (codes ++ operands ++ more) =
          .failed failure unread :=
      readInstruction_outside hstart kind outside hopening
    rw [List.append_assoc, decode_groups hgs, decode_of_failed hf] at hd
    cases hd
  · intro inside
    obtain ⟨instructions, groups, rest, unread, rfl, hgs, hf⟩ := decode_error_iff.mp h
    have hs : Spells instructions (groups.flatten.map Token.kind) :=
      spells_of_decode_ok (decode_ok_iff.mpr ⟨groups, rfl, hgs⟩)
    rcases exists_spelling_of_cutOff hf ended with ⟨i, more, hi⟩ | ⟨command, n, hk, hr, hn⟩
    · let added : List Token := more.map fun kind => ⟨kind, .start⟩
      have hadded : added.map Token.kind = more := by
        rw [List.map_map]
        exact List.map_id more
      have hone : Spells [i] (rest.map Token.kind ++ more) := ⟨[_], by simp, .cons hi .nil⟩
      have hall : Spells (instructions ++ [i])
          ((groups.flatten ++ rest ++ added).map Token.kind) := by
        rw [List.append_assoc, List.map_append, List.map_append, hadded]
        exact hs.append hone
      obtain ⟨decoded, hd, -⟩ := decode_ok_of_spells file hall
      exact ⟨added, decoded, hd⟩
    · exact absurd ⟨instructions, _, command, n, hs, hk, hr, by rw [List.map_append, hn]⟩ inside

/-- What is decoded of tokens that go on. Behind instructions, what follows is decoded as if it
stood alone. A failure inside the tokens stays, and nothing that follows is looked at. A failure at
the end of the tokens can be repaired by more of them, unless they end inside a number that is no
word already. -/
theorem decode_goes_on (file : String) (tokens : List Token) :
    (∀ instructions, decode file tokens = .ok instructions → ∀ more,
      decodeAll file (tokens ++ more) = (decodeAll file more).after instructions) ∧
    (∀ failure, decode file tokens = .error failure → failure.atEnd = false → ∀ more,
      decodeAll file (tokens ++ more) = (decodeAll file tokens).followed more) ∧
    ∀ failure, decode file tokens = .error failure → failure.atEnd = true →
      ((∃ more instructions, decode file (tokens ++ more) = .ok instructions) ↔
        ¬CutOffOutside (tokens.map Token.kind)) :=
  ⟨fun _ h => decodeAll_append_of_ok h, fun _ h inside => decodeAll_append_of_error h inside,
    fun _ h ended => exists_decode_append_iff h ended⟩

/-- A program that ends, followed by an unknown command; a number without its sign; a number that
can still end, and one that cannot be a word any more. -/
theorem decode_goes_on_cases :
    (decodeAll "<string>" ((Source.ofText .stl "LLL").tokens ++ (Source.ofText .stl "TSL").tokens) =
      (decodeAll "<string>" (Source.ofText .stl "TSL").tokens).after
        [⟨.flow, .exit, none, some ⟨"<string>", ⟨1, 1⟩⟩⟩]) ∧
    (decodeAll "<string>" ((Source.ofText .stl "LLLSSLT").tokens ++
        (Source.ofText .stl "LLL").tokens) =
      (decodeAll "<string>" (Source.ofText .stl "LLLSSLT").tokens).followed
        (Source.ofText .stl "LLL").tokens) ∧
    ((∃ more instructions,
        decode "<string>" ((Source.ofText .stl "SSST").tokens ++ more) = .ok instructions) ↔
      ¬CutOffOutside ((Source.ofText .stl "SSST").tokens.map Token.kind)) ∧
    ((∃ more instructions, decode "<string>"
        ((Source.ofText .stl "SSSTTTTTTTTTTTTTTTTTTTTTTTTTTTTTTTT").tokens ++ more) =
          .ok instructions) ↔
      ¬CutOffOutside
        ((Source.ofText .stl "SSSTTTTTTTTTTTTTTTTTTTTTTTTTTTTTTTT").tokens.map Token.kind)) :=
  ⟨(decode_goes_on "<string>" _).1 _ rfl _,
    (decode_goes_on "<string>" _).2.1 (.malformed ⟨.signMissing, "<string>", ⟨1, 6⟩⟩) rfl rfl _,
    (decode_goes_on "<string>" _).2.2 (.malformed ⟨.operandCutOff, "<string>", ⟨1, 1⟩⟩) rfl rfl,
    (decode_goes_on "<string>" _).2.2 (.malformed ⟨.operandCutOff, "<string>", ⟨1, 1⟩⟩) rfl rfl⟩

end Whitespace
