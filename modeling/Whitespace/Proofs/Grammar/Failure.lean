import Whitespace.Proofs.Grammar.Decoding

/-!
# How decoding fails

Decoding stops at the first ill-formed group of tokens, behind instructions that are spelled in
full. It then fails with an error of one of four names. There is one kind of group that no error
tells of: a number operand so long that the number has more digits than are converted to text.

Results:
1. `decodeAll_groups`: instructions that are spelled in full do not matter for what follows them.
2. `decode_error_iff`: decoding fails at the first group that is no instruction.
3. `decode_digitLimit_iff`: decoding fails without an error exactly at an overlong number.
4. `decode_in_taxonomy_iff`: decoding yields instructions or an error of one of the four names,
   exactly unless it stops at an overlong number; `decode_overlong_push` is such a case.
-/

namespace Whitespace

/-- Behind instructions that are spelled in full stands a number operand with more decimal digits
than are converted to text. -/
def Overlong (kinds : List TokenKind) : Prop :=
  ∃ (instructions : List Instruction) (before : List TokenKind) (command : Command)
    (n : Binary.Numeral) (after : List TokenKind),
    Spells instructions before ∧ command.operandKind? = some .number ∧
      10 ^ Decimal.digitLimit ≤ n.magnitude ∧
      kinds = before ++ (command.family.code ++ command.code ++ n.tokens) ++ after

/-! ## Behind well formed instructions -/

/-- Instructions that are spelled in full are decoded, whatever follows them. -/
theorem decodeAll_groups {file : String} {instructions : List Instruction}
    {groups : List (List Token)}
    (h : List.Forall₂ (Instruction.SpelledBy file) instructions groups) (rest : List Token) :
    decodeAll file (groups.flatten ++ rest) =
      { decodeAll file rest with
        instructions := instructions ++ (decodeAll file rest).instructions } := by
  induction h with
  | nil => rfl
  | @cons i group instructions groups hi _ ih =>
    have hr : readInstruction file (group ++ (groups.flatten ++ rest)) =
        .instruction i (groups.flatten ++ rest) :=
      readInstruction_group.mpr ⟨group, rfl, hi⟩
    rw [List.flatten_cons, List.append_assoc, decodeAll_of_instruction hr, ih]
    rfl

theorem decode_groups {file : String} {instructions : List Instruction} {groups : List (List Token)}
    (h : List.Forall₂ (Instruction.SpelledBy file) instructions groups) (rest : List Token) :
    decode file (groups.flatten ++ rest) = (decode file rest).map (instructions ++ ·) := by
  simp only [decode, decodeAll_groups h]
  cases (decodeAll file rest).failure <;> rfl

/-- Decoding fails at the first group that is no instruction, behind those that are. -/
theorem decode_error_iff {file : String} {tokens : List Token} {failure : DecodeFailure} :
    decode file tokens = .error failure ↔
      ∃ instructions groups rest unread, tokens = groups.flatten ++ rest ∧
        List.Forall₂ (Instruction.SpelledBy file) instructions groups ∧
        readInstruction file rest = .failed failure unread := by
  constructor
  · intro h
    -- Every instruction takes at least one token, so what remains to be decoded is shorter.
    induction hn : tokens.length using Nat.strongRecOn generalizing tokens with
    | ind n ih =>
      cases hr : readInstruction file tokens with
      | ended =>
        rw [readInstruction_ended hr] at h
        cases h
      | failed other unread =>
        rw [decode_of_failed hr] at h
        cases h
        exact ⟨[], [], tokens, unread, rfl, .nil, hr⟩
      | instruction i rest =>
        have hlen := readInstruction_length hr
        rw [decode_of_instruction hr] at h
        cases hd : decode file rest with
        | ok more =>
          rw [hd] at h
          cases h
        | error other =>
          rw [hd] at h
          cases h
          obtain ⟨group, rfl, hi⟩ := readInstruction_group.mp hr
          obtain ⟨instructions, groups, rest, unread, rfl, hgs, hf⟩ := ih _ (hn ▸ hlen) hd rfl
          refine ⟨i :: instructions, group :: groups, rest, unread, ?_, .cons hi hgs, hf⟩
          rw [List.flatten_cons, List.append_assoc]
  · rintro ⟨instructions, groups, rest, unread, rfl, hgs, hf⟩
    rw [decode_groups hgs, decode_of_failed hf]
    rfl

/-! ## Numbers that cannot be shown -/

theorem Decimal.isWritable_iff {magnitude : Nat} :
    Decimal.isWritable magnitude = true ↔ magnitude < 10 ^ Decimal.digitLimit := by
  rw [isWritable, decide_eq_true_iff, Nat.pow_eq]

theorem Binary.Numeral.natAbs_value (n : Binary.Numeral) : n.value.natAbs = n.magnitude := by
  unfold value
  split <;> omega

theorem not_inRange_of_overlong {n : Binary.Numeral}
    (h : 10 ^ Decimal.digitLimit ≤ n.magnitude) : ¬Word.InRange n.value := by
  intro hr
  have hlt : n.value.natAbs < 10 ^ Decimal.digitLimit := by
    have hword : n.value.natAbs < 10 ^ 10 := by
      unfold Word.InRange Word.minValue Word.maxValue at hr
      omega
    exact hword.trans_le (Nat.pow_le_pow_right (by decide) (by decide))
  rw [n.natAbs_value] at hlt
  exact absurd hlt (Nat.not_lt.mpr h)

/-- Only a number that is no word cannot be told of. -/
theorem DecodeFault.failure_eq_digitLimit_iff {fault : DecodeFault} {location : Location} :
    fault.failure location = .digitLimit ↔
      ∃ value, fault = .numberOutOfRange value ∧ 10 ^ Decimal.digitLimit ≤ value.natAbs := by
  cases fault with
  | numberOutOfRange value =>
    simp only [failure]
    split
    · next hw =>
      have := Decimal.isWritable_iff.mp hw
      simpa using this
    · next hw =>
      have := mt Decimal.isWritable_iff.mpr hw
      simpa using this
  | _ => simp [failure]

theorem readOperand_outOfRange {command : Command} {start position : Position}
    {tokens rest : List Token} {value : Int}
    (h : readOperand command start tokens = .failed (.numberOutOfRange value) position rest) :
    ∃ n : Binary.Numeral, command.operandKind? = some .number ∧ n.value = value ∧
      StartsWith tokens n.tokens rest := by
  unfold readOperand at h
  split at h
  · cases h
  · next hk =>
    rcases readNumber_cases start tokens with ⟨n, rest', hn⟩ | ⟨fault, position', rest', hf, hc⟩
    · rw [readNumber_of_startsWith start hn] at h
      split at h
      · cases h
      · cases h
        exact ⟨n, hk, rfl, hn⟩
    · rw [hf] at h
      cases h
      rcases hc with hc | hc <;> cases hc
  · unfold readLabel at h
    split at h <;> cases h

/-- A group cannot be told of exactly if it is an instruction with an overlong number. -/
theorem readInstruction_digitLimit_iff {file : String} {tokens rest : List Token} :
    readInstruction file tokens = .failed .digitLimit rest ↔
      ∃ (command : Command) (n : Binary.Numeral), command.operandKind? = some .number ∧
        10 ^ Decimal.digitLimit ≤ n.magnitude ∧
        StartsWith tokens (command.family.code ++ command.code ++ n.tokens) rest := by
  constructor
  · intro h
    cases tokens with
    | nil => cases h
    | cons first more =>
      rcases readInstruction_cases file first more with ⟨command, mid, hm⟩ | ⟨error, mid, he⟩
      · rw [readInstruction_of_startsWith file hm] at h
        cases ho : readOperand command first.position mid with
        | read operand rest =>
          rw [ho] at h
          cases h
        | failed fault position rest =>
          rw [ho, Reading.ofOperand, Reading.failed.injEq] at h
          obtain ⟨hfault, rfl⟩ := h
          obtain ⟨value, rfl, hv⟩ := DecodeFault.failure_eq_digitLimit_iff.mp hfault
          obtain ⟨n, hk, rfl, hn⟩ := readOperand_outOfRange ho
          rw [n.natAbs_value] at hv
          exact ⟨command, n, hk, hv, StartsWith.append_iff.mpr ⟨mid, hm, hn⟩⟩
      · rw [he] at h
        cases h
  · rintro ⟨command, n, hk, hv, ht⟩
    obtain ⟨mid, hm, hn⟩ := StartsWith.append_iff.mp ht
    obtain ⟨first, more, rfl⟩ := hm.exists_cons command.codes_ne_nil
    have ho : readOperand command first.position mid =
        .failed (.numberOutOfRange n.value) first.position rest := by
      unfold readOperand
      rw [hk]
      show readNumber first.position mid = _
      rw [readNumber_of_startsWith first.position hn, if_neg (not_inRange_of_overlong hv)]
    have hf : (DecodeFault.numberOutOfRange n.value).failure ⟨file, first.position⟩ = .digitLimit :=
      DecodeFault.failure_eq_digitLimit_iff.mpr ⟨n.value, rfl, by rwa [n.natAbs_value]⟩
    rw [readInstruction_of_startsWith file hm, ho, Reading.ofOperand, hf]

/-! ## The taxonomy -/

/-- Decoding fails without an error exactly if it stops at an overlong number. -/
theorem decode_digitLimit_iff (file : String) (tokens : List Token) :
    decode file tokens = .error .digitLimit ↔ Overlong (tokens.map Token.kind) := by
  rw [decode_error_iff]
  constructor
  · rintro ⟨instructions, groups, rest, unread, rfl, hgs, hf⟩
    obtain ⟨command, n, hk, hv, used, rfl, hu⟩ := readInstruction_digitLimit_iff.mp hf
    refine ⟨instructions, groups.flatten.map Token.kind, command, n, unread.map Token.kind, ?_, hk,
      hv, ?_⟩
    · exact spells_of_decode_ok (decode_ok_iff.mpr ⟨groups, rfl, hgs⟩)
    · rw [List.map_append, List.map_append, hu]
      exact (List.append_assoc ..).symm
  · rintro ⟨instructions, before, command, n, after, hs, hk, hv, ht⟩
    rw [List.append_assoc] at ht
    obtain ⟨tokens, rest, rfl, rfl, hr⟩ := List.map_eq_append_iff.mp ht
    obtain ⟨used, unread, rfl, hu, -⟩ := List.map_eq_append_iff.mp hr
    obtain ⟨decoded, hd, -⟩ := decode_ok_of_spells file hs
    obtain ⟨groups, rfl, hgs⟩ := decode_ok_iff.mp hd
    refine ⟨decoded, groups, used ++ unread, unread, rfl, hgs, ?_⟩
    exact readInstruction_digitLimit_iff.mpr ⟨command, n, hk, hv, used, rfl, hu⟩

theorem DecodeFault.name_mem (fault : DecodeFault) :
    fault.name ∈ ["UnrecognizedFamilyError", "UnrecognizedCommandError",
      "UnterminatedOperandError", "MalformedOperandError"] := by
  cases fault <;> simp [name]

/-- Decoding yields instructions or an error of one of four names, exactly unless it stops at a
number operand with more decimal digits than are converted to text. -/
theorem decode_in_taxonomy_iff (file : String) (tokens : List Token) :
    ((∃ instructions, decode file tokens = .ok instructions) ∨
      ∃ error, decode file tokens = .error (.malformed error) ∧
        error.fault.name ∈ ["UnrecognizedFamilyError", "UnrecognizedCommandError",
          "UnterminatedOperandError", "MalformedOperandError"]) ↔
    ¬Overlong (tokens.map Token.kind) := by
  rw [← decode_digitLimit_iff file]
  cases hd : decode file tokens with
  | ok instructions => simp
  | error failure =>
    cases failure with
    | malformed error => simpa using error.fault.name_mem
    | digitLimit => simp

/-- The text of an instruction that pushes a number of so many set bits. -/
def pushOnes (bits : Nat) : String :=
  String.ofList ('S' :: 'S' :: 'S' :: List.replicate bits 'T' ++ ['L'])

theorem bitsValue_replicate (bits : Nat) : bitsValue (List.replicate bits true) + 1 = 2 ^ bits := by
  induction bits with
  | zero => rfl
  | succ n ih =>
    rw [List.replicate_succ', Binary.Numeral.bitsValue_append, Nat.pow_succ, ← ih, Bool.toNat_true]
    omega

theorem kinds_pushOnes (bits : Nat) :
    (Source.ofText .stl (pushOnes bits)).tokens.map Token.kind =
      .space :: .space :: (⟨false, List.replicate bits true⟩ : Binary.Numeral).tokens := by
  have hchars : (pushOnes bits).toList =
      (TokenKind.space :: .space :: (⟨false, List.replicate bits true⟩ : Binary.Numeral).tokens).map
        Encoding.stl.char := by
    rw [pushOnes, String.toList_ofList]
    simp [Binary.Numeral.tokens, TokenKind.ofBit, Encoding.char, TokenKind.letter]
  unfold Source.ofText Source.tokens
  rw [hchars]
  exact kinds_tokensFrom ..

theorem overlong_pushOnes {bits : Nat} (h : 10 ^ Decimal.digitLimit < 2 ^ bits) :
    Overlong ((Source.ofText .stl (pushOnes bits)).tokens.map Token.kind) := by
  refine ⟨[], [], .push, ⟨false, List.replicate bits true⟩, [], ⟨[], rfl, .nil⟩, rfl, ?_, ?_⟩
  · rw [← Binary.Numeral.bitsValue_eq_magnitude]
    show _ ≤ bitsValue (List.replicate bits true)
    exact Nat.le_of_lt_succ (h.trans_eq (bitsValue_replicate bits).symm)
  · rw [kinds_pushOnes, List.append_nil]
    rfl

/-- The instruction that pushes a number of 14285 set bits is not decoded, and no error of the
decoder tells why. -/
theorem decode_overlong_push :
    ¬((∃ instructions, decode "<string>" (Source.ofText .stl (pushOnes 14285)).tokens =
          .ok instructions) ∨
      ∃ error, decode "<string>" (Source.ofText .stl (pushOnes 14285)).tokens =
        .error (.malformed error)) := by
  have hlong : 10 ^ Decimal.digitLimit < 2 ^ 14285 := by decide +kernel
  have hd := (decode_digitLimit_iff "<string>" _).mpr (overlong_pushOnes hlong)
  rintro (⟨instructions, h⟩ | ⟨error, h⟩)
  · rw [hd] at h
    cases h
  · rw [hd] at h
    cases h

end Whitespace
