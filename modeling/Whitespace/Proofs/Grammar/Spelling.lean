import Mathlib.Data.List.Forall2
import Whitespace.Proofs.Grammar.Code
import Whitespace.Proofs.Grammar.Numeral

/-!
# Spellings of instructions

The grammar of instructions, apart from the way they are read: an instruction is spelled by the code
of its family, the code of its command, and the operand that the command asks for, which is a
numeral or the bits of a label name up to a line feed.

Results:
1. `readOperand_iff`: reading an operand takes exactly one spelling of it off the tokens.
2. `readInstruction_iff`: the same for an instruction, which stands where its first token stands.
3. `Instruction.isEncodable_iff`: the instructions that can be encoded are those that have a
   spelling; encoding yields one of them.
-/

namespace Whitespace

/-- The tokens are one way to write the operand that a command with this operand kind asks for. -/
inductive Operand.Spelling : Option OperandKind → Option Operand → List TokenKind → Prop
  | none : Spelling none none []
  | number {value : Int} (n : Binary.Numeral) (denotes : n.value = value)
      (range : Word.InRange value) : Spelling (some .number) (some (.number value)) n.tokens
  | label {name : String} (bits : List Bool) (denotes : bitsName bits = name) :
      Spelling (some .label) (some (.label name .none)) (bits.map .ofBit ++ [.lineFeed])

/-- The tokens are one way to write the instruction. -/
def Instruction.Spelling (i : Instruction) (kinds : List TokenKind) : Prop :=
  i.family = i.command.family ∧
    ∃ operand, Operand.Spelling i.command.operandKind? i.operand operand ∧
      kinds = i.family.code ++ i.command.code ++ operand

/-- The tokens are spellings of the instructions, one after the other. -/
def Spells (instructions : List Instruction) (kinds : List TokenKind) : Prop :=
  ∃ pieces, kinds = pieces.flatten ∧ List.Forall₂ Instruction.Spelling instructions pieces

/-! ## Bits and operands -/

theorem readBits_sound {tokens rest : List Token} {bits : List Bool}
    (h : readBits tokens = some (bits, rest)) :
    StartsWith tokens (bits.map .ofBit ++ [.lineFeed]) rest := by
  induction tokens generalizing bits with
  | nil => simp [readBits] at h
  | cons t more ih =>
    rw [readBits] at h
    split at h
    · next hk =>
      cases h
      exact StartsWith.cons_iff.mpr ⟨t, _, rfl, hk, StartsWith.nil_iff.mpr rfl⟩
    all_goals
      next hk =>
      obtain ⟨⟨bits, rest⟩, hr, he⟩ := Option.map_eq_some_iff.mp h
      cases he
      exact StartsWith.cons_iff.mpr ⟨t, more, rfl, hk, ih hr⟩

theorem readBits_complete {tokens rest : List Token} {bits : List Bool}
    (h : StartsWith tokens (bits.map .ofBit ++ [.lineFeed]) rest) :
    readBits tokens = some (bits, rest) := by
  induction bits generalizing tokens with
  | nil =>
    obtain ⟨t, more, rfl, hk, hm⟩ := StartsWith.cons_iff.mp h
    rw [StartsWith.nil_iff] at hm
    simp [readBits, hk, hm]
  | cons bit bits ih =>
    obtain ⟨t, more, rfl, hk, hm⟩ := StartsWith.cons_iff.mp h
    cases bit <;> simp [readBits, hk, TokenKind.ofBit, ih hm]

/-- Bits are read up to the first line feed. -/
theorem readBits_iff {tokens rest : List Token} {bits : List Bool} :
    readBits tokens = some (bits, rest) ↔
      StartsWith tokens (bits.map .ofBit ++ [.lineFeed]) rest :=
  ⟨readBits_sound, readBits_complete⟩

theorem kind_eq_ofBit {t : Token} (h : t.kind ≠ .lineFeed) : t.kind = .ofBit (t.kind = .tab) := by
  cases hk : t.kind
  · rfl
  · rfl
  · exact absurd hk h

/-- A sign and bits up to a line feed are a numeral. -/
theorem exists_numeral {sign : Token} {more rest : List Token} {bits : List Bool}
    (hs : sign.kind ≠ .lineFeed) (hb : readBits more = some (bits, rest)) :
    ∃ n : Binary.Numeral, StartsWith (sign :: more) n.tokens rest := by
  refine ⟨⟨sign.kind = .tab, bits⟩, StartsWith.cons_iff.mpr ⟨sign, more, rfl, ?_, ?_⟩⟩
  · exact kind_eq_ofBit hs
  · exact readBits_iff.mp hb

/-- A numeral is read as the number that it denotes, if that is a word. -/
theorem readNumber_of_startsWith (start : Position) {tokens rest : List Token}
    {n : Binary.Numeral} (h : StartsWith tokens n.tokens rest) :
    readNumber start tokens =
      if Word.InRange n.value then .read (some (.number n.value)) rest
      else .failed (.numberOutOfRange n.value) start rest := by
  obtain ⟨sign, more, rfl, hk, hm⟩ := StartsWith.cons_iff.mp h
  have hs : sign.kind ≠ .lineFeed := by
    rw [hk]
    cases n.negative <;> decide
  have ht : sign.kind = .tab ↔ n.negative = true := by
    rw [hk]
    cases n.negative <;> decide
  have hv :
      (if sign.kind = .tab then -(bitsValue n.bits : Int) else bitsValue n.bits) = n.value := by
    simp only [Binary.Numeral.bitsValue_eq_magnitude, Binary.Numeral.value, ht]
  simp only [readNumber, if_neg hs, readBits_iff.mpr hm, hv]

/-- Where no numeral stands, the sign is missing or the tokens end. -/
theorem readNumber_cases (start : Position) (tokens : List Token) :
    (∃ (n : Binary.Numeral) (rest : List Token), StartsWith tokens n.tokens rest) ∨
      ∃ fault position rest, readNumber start tokens = .failed fault position rest ∧
        (fault = .operandCutOff ∨ fault = .signMissing) := by
  cases tokens with
  | nil => exact .inr ⟨_, _, _, rfl, .inl rfl⟩
  | cons sign more =>
    by_cases hs : sign.kind = .lineFeed
    · refine .inr ⟨.signMissing, sign.position, more, ?_, .inr rfl⟩
      rw [readNumber, if_pos hs]
    · cases hb : readBits more with
      | none =>
        refine .inr ⟨.operandCutOff, start, [], ?_, .inl rfl⟩
        simp only [readNumber, if_neg hs, hb]
      | some read =>
        obtain ⟨n, hn⟩ := exists_numeral hs hb
        exact .inl ⟨n, read.2, hn⟩

theorem readNumber_sound {start : Position} {tokens rest : List Token} {operand : Option Operand}
    (h : readNumber start tokens = .read operand rest) :
    ∃ n : Binary.Numeral, Word.InRange n.value ∧ operand = some (.number n.value) ∧
      StartsWith tokens n.tokens rest := by
  rcases readNumber_cases start tokens with ⟨n, rest', hn⟩ | ⟨fault, position, rest', hf, -⟩
  · rw [readNumber_of_startsWith start hn] at h
    split at h
    · next hr =>
      cases h
      exact ⟨n, hr, rfl, hn⟩
    · cases h
  · rw [hf] at h
    cases h

theorem readNumber_complete {start : Position} {tokens rest : List Token} {n : Binary.Numeral}
    (hr : Word.InRange n.value) (h : StartsWith tokens n.tokens rest) :
    readNumber start tokens = .read (some (.number n.value)) rest := by
  rw [readNumber_of_startsWith start h, if_pos hr]

/-- Reading an operand takes one spelling of it off the tokens. -/
theorem readOperand_iff {command : Command} {start : Position} {tokens rest : List Token}
    {operand : Option Operand} :
    readOperand command start tokens = .read operand rest ↔
      ∃ kinds, Operand.Spelling command.operandKind? operand kinds ∧
        StartsWith tokens kinds rest := by
  unfold readOperand
  constructor
  · intro h
    split at h
    · next hk =>
      cases h
      rw [hk]
      exact ⟨[], .none, StartsWith.nil_iff.mpr rfl⟩
    · next hk =>
      obtain ⟨n, hr, rfl, hn⟩ := readNumber_sound h
      rw [hk]
      exact ⟨_, .number n rfl hr, hn⟩
    · next hk =>
      unfold readLabel at h
      split at h
      · cases h
      · next bits _ hb =>
        cases h
        rw [hk]
        exact ⟨_, .label bits rfl, readBits_iff.mp hb⟩
  · rintro ⟨kinds, hs, ht⟩
    generalize command.operandKind? = kind at hs
    cases hs with
    | none => rw [StartsWith.nil_iff.mp ht]
    | number n hv hr =>
      subst hv
      exact readNumber_complete hr ht
    | label bits hb =>
      subst hb
      simp only [readLabel, readBits_iff.mpr ht]

/-! ## Instructions -/

theorem Command.code_ne_nil (c : Command) : c.code ≠ [] := by
  cases c <;> exact List.cons_ne_nil _ _

theorem Family.code_ne_nil (f : Family) : f.code ≠ [] := by
  cases f <;> exact List.cons_ne_nil _ _

theorem Command.codes_ne_nil (c : Command) : c.family.code ++ c.code ≠ [] :=
  List.append_ne_nil_of_left_ne_nil c.family.code_ne_nil _

/-- `ReadsGroup file first more reading`: the tokens `first :: more` are read as `reading`, with one
rule for each way in which that can go. -/
inductive ReadsGroup (file : String) (first : Token) (more : List Token) : Reading → Prop
  | familyCutOff (family : matchCode Family.codes [] (first :: more) = .cutOff) :
      ReadsGroup file first more
        (.failed (DecodeFault.familyCutOff.failure ⟨file, first.position⟩) [])
  | unknownFamily {code : Code} {rest : List Token}
      (family : matchCode Family.codes [] (first :: more) = .unmatched code rest) :
      ReadsGroup file first more
        (.failed ((DecodeFault.unknownFamily code).failure ⟨file, first.position⟩) rest)
  | commandMissing {f : Family} (family : matchCode Family.codes [] (first :: more) = .found f []) :
      ReadsGroup file first more
        (.failed ((DecodeFault.commandMissing f).failure ⟨file, first.position⟩) [])
  | commandCutOff {f : Family} {second : Token} {rest : List Token}
      (family : matchCode Family.codes [] (first :: more) = .found f (second :: rest))
      (command : matchCode f.commandCodes [] (second :: rest) = .cutOff) :
      ReadsGroup file first more
        (.failed ((DecodeFault.commandCutOff f).failure ⟨file, second.position⟩) [])
  | unknownCommand {f : Family} {second : Token} {rest unread : List Token} {code : Code}
      (family : matchCode Family.codes [] (first :: more) = .found f (second :: rest))
      (command : matchCode f.commandCodes [] (second :: rest) = .unmatched code unread) :
      ReadsGroup file first more
        (.failed ((DecodeFault.unknownCommand f code).failure ⟨file, second.position⟩) unread)
  | operandFailed {f : Family} {second : Token} {rest operands unread : List Token} {c : Command}
      {fault : DecodeFault} {position : Position}
      (family : matchCode Family.codes [] (first :: more) = .found f (second :: rest))
      (command : matchCode f.commandCodes [] (second :: rest) = .found c operands)
      (operand : readOperand c first.position operands = .failed fault position unread) :
      ReadsGroup file first more (.failed (fault.failure ⟨file, position⟩) unread)
  | instruction {f : Family} {second : Token} {rest operands unread : List Token} {c : Command}
      {read : Option Operand}
      (family : matchCode Family.codes [] (first :: more) = .found f (second :: rest))
      (command : matchCode f.commandCodes [] (second :: rest) = .found c operands)
      (operand : readOperand c first.position operands = .read read unread) :
      ReadsGroup file first more
        (.instruction ⟨f, c, read, some ⟨file, first.position⟩⟩ unread)

theorem readsGroup (file : String) (first : Token) (more : List Token) :
    ReadsGroup file first more (readInstruction file (first :: more)) := by
  simp only [readInstruction]
  split
  · next family => exact .familyCutOff family
  · next family => exact .unknownFamily family
  · next family => exact .commandMissing family
  · next family =>
    split
    · next command => exact .commandCutOff family command
    · next command => exact .unknownCommand family command
    · next command =>
      split
      · next operand => exact .operandFailed family command operand
      · next operand => exact .instruction family command operand

theorem ReadsGroup.eq {file : String} {first : Token} {more : List Token} {reading : Reading}
    (h : ReadsGroup file first more reading) : readInstruction file (first :: more) = reading := by
  cases h with
  | familyCutOff family | unknownFamily family | commandMissing family =>
    simp only [readInstruction, family]
  | commandCutOff family command | unknownCommand family command =>
    simp only [readInstruction, family, command]
  | operandFailed family command operand | instruction family command operand =>
    simp only [readInstruction, family, command, operand]

/-- What an instruction amounts to once its command and its operand have been read. -/
def Reading.ofOperand (file : String) (first : Token) (command : Command) :
    OperandReading → Reading
  | .read operand rest =>
    .instruction ⟨command.family, command, operand, some ⟨file, first.position⟩⟩ rest
  | .failed fault position rest => .failed (fault.failure ⟨file, position⟩) rest

/-- Behind the codes of a family and a command, the operand of the command is read. -/
theorem readInstruction_of_startsWith (file : String) {first : Token} {more rest : List Token}
    {command : Command}
    (h : StartsWith (first :: more) (command.family.code ++ command.code) rest) :
    readInstruction file (first :: more) =
      .ofOperand file first command (readOperand command first.position rest) := by
  obtain ⟨mid, hfamily, hcommand⟩ := StartsWith.append_iff.mp h
  -- The code of the command is not empty, so the tokens do not end after the code of the family.
  obtain ⟨second, mid, rfl⟩ := hcommand.exists_cons command.code_ne_nil
  simp only [readInstruction, matchFamily_iff.mpr hfamily, matchCommand_iff.mpr ⟨rfl, hcommand⟩]
  cases readOperand command first.position rest <;> rfl

/-- Where no codes of a family and a command stand, the tokens are malformed. -/
theorem readInstruction_cases (file : String) (first : Token) (more : List Token) :
    (∃ (command : Command) (rest : List Token),
      StartsWith (first :: more) (command.family.code ++ command.code) rest) ∨
    ∃ error rest, readInstruction file (first :: more) = .failed (.malformed error) rest := by
  have hr := readsGroup file first more
  generalize readInstruction file (first :: more) = reading at hr
  cases hr with
  | familyCutOff | unknownFamily | commandMissing | commandCutOff | unknownCommand =>
    exact .inr ⟨_, _, rfl⟩
  | operandFailed family command | instruction family command =>
    obtain ⟨rfl, hcode⟩ := matchCommand_iff.mp command
    exact .inl ⟨_, _, StartsWith.append_iff.mpr ⟨_, matchFamily_iff.mp family, hcode⟩⟩

theorem readInstruction_sound {file : String} {tokens rest : List Token} {i : Instruction}
    (h : readInstruction file tokens = .instruction i rest) :
    ∃ first kinds, tokens.head? = some first ∧ i.Spelling kinds ∧ StartsWith tokens kinds rest ∧
      i.location = some ⟨file, first.position⟩ := by
  cases tokens with
  | nil => cases h
  | cons first more =>
    rcases readInstruction_cases file first more with ⟨command, mid, hm⟩ | ⟨error, mid, he⟩
    · rw [readInstruction_of_startsWith file hm] at h
      cases ho : readOperand command first.position mid with
      | failed fault position rest =>
        rw [ho] at h
        cases h
      | read operand rest =>
        rw [ho] at h
        cases h
        obtain ⟨kinds, hs, hk⟩ := readOperand_iff.mp ho
        exact ⟨first, _, rfl, ⟨rfl, kinds, hs, rfl⟩, StartsWith.append_iff.mpr ⟨mid, hm, hk⟩, rfl⟩
    · rw [he] at h
      cases h

theorem readInstruction_complete {file : String} {tokens rest : List Token} {i : Instruction}
    {first : Token} {kinds : List TokenKind} (hfirst : tokens.head? = some first)
    (hs : i.Spelling kinds) (ht : StartsWith tokens kinds rest)
    (hl : i.location = some ⟨file, first.position⟩) :
    readInstruction file tokens = .instruction i rest := by
  obtain ⟨hfam, operand, ho, rfl⟩ := hs
  obtain ⟨mid, hcodes, hrest⟩ := StartsWith.append_iff.mp ht
  obtain ⟨more, rfl⟩ := List.head?_eq_some_iff.mp hfirst
  rw [hfam] at hcodes
  rw [readInstruction_of_startsWith file hcodes, readOperand_iff.mpr ⟨operand, ho, hrest⟩,
    Reading.ofOperand, ← hl, ← hfam]

/-- Reading an instruction takes one spelling of it off the tokens; it stands where its first token
stands. -/
theorem readInstruction_iff {file : String} {tokens rest : List Token} {i : Instruction} :
    readInstruction file tokens = .instruction i rest ↔
      ∃ first kinds, tokens.head? = some first ∧ i.Spelling kinds ∧
        StartsWith tokens kinds rest ∧ i.location = some ⟨file, first.position⟩ :=
  ⟨readInstruction_sound, fun ⟨_, _, hf, hs, ht, hl⟩ => readInstruction_complete hf hs ht hl⟩

theorem Instruction.Spelling.ne_nil {i : Instruction} {kinds : List TokenKind}
    (h : i.Spelling kinds) : kinds ≠ [] := by
  obtain ⟨_, _, _, rfl⟩ := h
  simp [i.family.code_ne_nil]

/-- Where an instruction stands has nothing to do with its spelling. -/
theorem Instruction.Spelling.congr {i j : Instruction} {kinds : List TokenKind}
    (h : i.Spelling kinds) (hij : i.unlocated = j.unlocated) : j.Spelling kinds := by
  cases i
  cases j
  cases hij
  exact h

/-! ## Encoding -/

theorem bitsName_nameBits {name : String} (h : ∀ c ∈ name.toList, c = '0' ∨ c = '1') :
    bitsName (nameBits name) = name := by
  unfold bitsName nameBits
  rw [List.map_map, ← String.ofList_toList (s := name), String.toList_ofList]
  congr 1
  refine (List.map_congr_left fun c hc => ?_).trans (List.map_id _)
  obtain rfl | rfl := h c hc <;> rfl

theorem Operand.IsEncodable.spelling {operand : Operand} (h : operand.IsEncodable) :
    Operand.Spelling (some operand.kind) (some operand) operand.encode := by
  cases operand with
  | number value => exact .number (Binary.Numeral.ofInt value) (Binary.Numeral.value_ofInt value) h
  | label name target =>
    obtain ⟨hname, rfl⟩ := h
    exact .label (nameBits name) (bitsName_nameBits hname)

/-- Encoding an instruction yields one of its spellings. -/
theorem Instruction.IsEncodable.spelling {i : Instruction} (h : i.IsEncodable) :
    i.Spelling i.encode := by
  obtain ⟨⟨hf, hk⟩, ho⟩ := h
  refine ⟨hf, _, ?_, rfl⟩
  rw [← hk]
  cases hi : i.operand with
  | none => exact .none
  | some operand => exact (ho operand hi).spelling

theorem bitsName_bits (bits : List Bool) : ∀ c ∈ (bitsName bits).toList, c = '0' ∨ c = '1' := by
  intro c hc
  unfold bitsName at hc
  rw [String.toList_ofList] at hc
  obtain ⟨bit, _, rfl⟩ := List.mem_map.mp hc
  cases bit
  · exact .inl rfl
  · exact .inr rfl

theorem Operand.Spelling.isEncodable {kind : Option OperandKind} {operand : Option Operand}
    {kinds : List TokenKind} (h : Operand.Spelling kind operand kinds) :
    operand.map Operand.kind = kind ∧ ∀ o ∈ operand, o.IsEncodable := by
  cases h with
  | none => exact ⟨rfl, by simp⟩
  | number n _ hr =>
    refine ⟨rfl, ?_⟩
    rintro _ ⟨⟩
    exact hr
  | label bits hb =>
    refine ⟨rfl, ?_⟩
    rintro _ ⟨⟩
    subst hb
    exact ⟨bitsName_bits bits, rfl⟩

/-- The instructions that can be encoded are those that have a spelling. -/
theorem Instruction.isEncodable_iff {i : Instruction} :
    i.IsEncodable ↔ ∃ kinds, i.Spelling kinds := by
  constructor
  · exact fun h => ⟨_, h.spelling⟩
  · rintro ⟨_, hf, _, ho, _⟩
    obtain ⟨hk, he⟩ := ho.isEncodable
    exact ⟨⟨hf, hk⟩, he⟩

end Whitespace
