import Whitespace.Proofs.Grammar.Spelling

/-!
# Decoding and the grammar

Decoding reads one instruction after the other, so a list of tokens decodes exactly if it can be cut
into spellings of instructions. The cut is then the only one.

Results:
1. `decode_of_instruction`, `decode_of_failed`: decoding instruction by instruction; the bound on
   the number of instructions does not matter.
2. `decode_ok_iff`: what decodes, and to what, places included.
3. `decode_accepts_exactly_spellings`: the decoder accepts exactly the grammar, undoes assembling,
   and tells apart all that is not the same up to leading zeros and the sign of zero.
-/

namespace Whitespace

/-- The tokens are one way to write the instruction, and it stands where the first of them does. -/
def Instruction.SpelledBy (file : String) (i : Instruction) (group : List Token) : Prop :=
  i.Spelling (group.map Token.kind) ∧
    ∃ first, group.head? = some first ∧ i.location = some ⟨file, first.position⟩

/-- The tokens are two ways to write one instruction that differ in nothing but leading zeros and
the sign of zero in a number. -/
inductive Respelling : List TokenKind → List TokenKind → Prop
  | same {i : Instruction} {kinds : List TokenKind} : i.Spelling kinds → Respelling kinds kinds
  | number {command : Command} {a b : Binary.Numeral} :
      command.operandKind? = some .number → Word.InRange a.value → a.Agrees b →
      Respelling (command.family.code ++ command.code ++ a.tokens)
        (command.family.code ++ command.code ++ b.tokens)

/-- The tokens spell sequences of instructions that differ in nothing but leading zeros and the sign
of zero in numbers. -/
def Respells (kinds kinds' : List TokenKind) : Prop :=
  ∃ pieces pieces', kinds = pieces.flatten ∧ kinds' = pieces'.flatten ∧
    List.Forall₂ Respelling pieces pieces'

/-! ## Decoding instruction by instruction -/

theorem readInstruction_group {file : String} {tokens rest : List Token} {i : Instruction} :
    readInstruction file tokens = .instruction i rest ↔
      ∃ group, tokens = group ++ rest ∧ i.SpelledBy file group := by
  have hhead : ∀ {group : List Token}, i.Spelling (group.map Token.kind) →
      (group ++ rest).head? = group.head? := by
    intro group hs
    obtain ⟨t, more, rfl⟩ := List.exists_cons_of_ne_nil (List.map_eq_nil_iff.not.mp hs.ne_nil)
    rfl
  rw [readInstruction_iff]
  constructor
  · rintro ⟨first, kinds, hf, hs, ⟨group, rfl, rfl⟩, hl⟩
    exact ⟨group, rfl, hs, first, hhead hs ▸ hf, hl⟩
  · rintro ⟨group, rfl, hs, first, hf, hl⟩
    exact ⟨first, _, (hhead hs).trans hf, hs, ⟨group, rfl, rfl⟩, hl⟩

theorem readInstruction_length {file : String} {tokens rest : List Token} {i : Instruction}
    (h : readInstruction file tokens = .instruction i rest) : rest.length < tokens.length := by
  obtain ⟨group, rfl, hs, _⟩ := readInstruction_group.mp h
  have hne : group ≠ [] := List.map_eq_nil_iff.not.mp hs.ne_nil
  have := List.length_pos_of_ne_nil hne
  rw [List.length_append]
  omega

/-- Bounds greater than the number of tokens are all the same. -/
theorem decodeUpTo_eq {file : String} {tokens : List Token} {n m : Nat}
    (hn : tokens.length < n) (hm : tokens.length < m) :
    decodeUpTo file n tokens = decodeUpTo file m tokens := by
  induction n generalizing tokens m with
  | zero => omega
  | succ n ih =>
    obtain ⟨m, rfl⟩ : ∃ k, m = k + 1 := ⟨m - 1, by omega⟩
    simp only [decodeUpTo]
    split
    · rfl
    · rfl
    · next i rest h =>
      have hlen := readInstruction_length h
      rw [ih (m := m) (by omega) (by omega)]

theorem decodeAll_of_instruction {file : String} {tokens rest : List Token} {i : Instruction}
    (h : readInstruction file tokens = .instruction i rest) :
    decodeAll file tokens =
      { decodeAll file rest with instructions := i :: (decodeAll file rest).instructions } := by
  have hlen := readInstruction_length h
  have hbound : decodeUpTo file tokens.length rest = decodeAll file rest :=
    decodeUpTo_eq hlen (Nat.lt_succ_self _)
  rw [decodeAll, decodeUpTo, h]
  simp only [hbound]

theorem decode_of_instruction {file : String} {tokens rest : List Token} {i : Instruction}
    (h : readInstruction file tokens = .instruction i rest) :
    decode file tokens = (decode file rest).map (i :: ·) := by
  simp only [decode, decodeAll_of_instruction h]
  cases (decodeAll file rest).failure <;> rfl

theorem decodeAll_of_failed {file : String} {tokens rest : List Token} {failure : DecodeFailure}
    (h : readInstruction file tokens = .failed failure rest) :
    decodeAll file tokens = ⟨[], some failure, rest, failure.atEnd⟩ := by
  simp only [decodeAll, decodeUpTo, h]

theorem decode_of_failed {file : String} {tokens rest : List Token} {failure : DecodeFailure}
    (h : readInstruction file tokens = .failed failure rest) :
    decode file tokens = .error failure := by
  simp only [decode, decodeAll_of_failed h]

theorem readInstruction_ended {file : String} {tokens : List Token}
    (h : readInstruction file tokens = .ended) : tokens = [] := by
  cases tokens with
  | nil => rfl
  | cons t more =>
    simp only [readInstruction] at h
    repeat (split at h <;> try cases h)

/-- Tokens decode to instructions exactly if they are spellings of them, one after the other. -/
theorem decode_ok_iff {file : String} {tokens : List Token} {instructions : List Instruction} :
    decode file tokens = .ok instructions ↔
      ∃ groups, tokens = groups.flatten ∧
        List.Forall₂ (Instruction.SpelledBy file) instructions groups := by
  constructor
  · intro h
    -- Every instruction takes at least one token, so what remains to be decoded is shorter.
    induction hn : tokens.length using Nat.strongRecOn generalizing tokens instructions with
    | ind n ih =>
      cases hr : readInstruction file tokens with
      | ended =>
        rw [readInstruction_ended hr] at h ⊢
        cases h
        exact ⟨[], rfl, .nil⟩
      | failed failure rest =>
        rw [decode_of_failed hr] at h
        cases h
      | instruction i rest =>
        have hlen := readInstruction_length hr
        rw [decode_of_instruction hr] at h
        cases hd : decode file rest with
        | error _ => rw [hd] at h; cases h
        | ok more =>
          rw [hd] at h
          cases h
          obtain ⟨group, rfl, hg⟩ := readInstruction_group.mp hr
          obtain ⟨groups, rfl, hgs⟩ := ih _ (hn ▸ hlen) hd rfl
          exact ⟨group :: groups, rfl, .cons hg hgs⟩
  · rintro ⟨groups, rfl, hgs⟩
    induction hgs with
    | nil => rfl
    | @cons i group instructions groups hg _ ih =>
      have hr : readInstruction file (group ++ groups.flatten) = .instruction i groups.flatten :=
        readInstruction_group.mpr ⟨group, rfl, hg⟩
      rw [List.flatten_cons, decode_of_instruction hr, ih]
      rfl

/-! ## Places aside -/

/-- A cut of the kinds of tokens is a cut of the tokens. -/
theorem exists_groups {tokens : List Token} {pieces : List (List TokenKind)}
    (h : tokens.map Token.kind = pieces.flatten) :
    ∃ groups : List (List Token), tokens = groups.flatten ∧
      groups.map (List.map Token.kind) = pieces := by
  induction pieces generalizing tokens with
  | nil => exact ⟨[], List.map_eq_nil_iff.mp h, rfl⟩
  | cons piece pieces ih =>
    obtain ⟨group, rest, rfl, hg, hr⟩ := List.map_eq_append_iff.mp h
    obtain ⟨groups, rfl, hgs⟩ := ih hr
    exact ⟨group :: groups, rfl, by rw [List.map_cons, hg, hgs]⟩

/-- An instruction can be placed where its tokens stand. -/
theorem Instruction.Spelling.place {file : String} {i : Instruction} {group : List Token}
    (h : i.Spelling (group.map Token.kind)) :
    ∃ j : Instruction, j.unlocated = i.unlocated ∧ j.SpelledBy file group := by
  obtain ⟨first, more, rfl⟩ := List.exists_cons_of_ne_nil (List.map_eq_nil_iff.not.mp h.ne_nil)
  exact ⟨{ i with location := some ⟨file, first.position⟩ }, rfl, h.congr rfl, first, rfl, rfl⟩

theorem decode_ok_of_spells (file : String) {tokens : List Token} {instructions : List Instruction}
    (h : Spells instructions (tokens.map Token.kind)) :
    ∃ decoded, decode file tokens = .ok decoded ∧
      decoded.map Instruction.unlocated = instructions.map Instruction.unlocated := by
  obtain ⟨pieces, hp, hs⟩ := h
  obtain ⟨groups, rfl, rfl⟩ := exists_groups hp
  suffices hd : ∃ decoded : List Instruction,
      decoded.map Instruction.unlocated = instructions.map Instruction.unlocated ∧
        List.Forall₂ (Instruction.SpelledBy file) decoded groups by
    obtain ⟨decoded, hl, hg⟩ := hd
    exact ⟨decoded, decode_ok_iff.mpr ⟨groups, rfl, hg⟩, hl⟩
  clear hp
  induction groups generalizing instructions with
  | nil =>
    cases hs
    exact ⟨[], rfl, .nil⟩
  | cons group groups ih =>
    cases hs with
    | @cons i _ instructions _ hi hs =>
      obtain ⟨j, hj, hg⟩ := hi.place
      obtain ⟨decoded, hl, hgs⟩ := ih hs
      exact ⟨j :: decoded, by rw [List.map_cons, List.map_cons, hj, hl], .cons hg hgs⟩

theorem spells_of_decode_ok {file : String} {tokens : List Token} {decoded : List Instruction}
    (h : decode file tokens = .ok decoded) : Spells decoded (tokens.map Token.kind) := by
  obtain ⟨groups, rfl, hg⟩ := decode_ok_iff.mp h
  refine ⟨groups.map (List.map Token.kind), List.map_flatten .., ?_⟩
  exact List.forall₂_map_right_iff.mpr (hg.imp fun _ _ hs => hs.1)

theorem isEncodable_of_decode_ok {file : String} {tokens : List Token} {decoded : List Instruction}
    (h : decode file tokens = .ok decoded) : ∀ i ∈ decoded, i.IsEncodable := by
  obtain ⟨pieces, hp, hs⟩ := spells_of_decode_ok h
  clear h hp
  induction hs with
  | nil => simp
  | cons hi _ ih =>
    rw [List.forall_mem_cons]
    exact ⟨Instruction.isEncodable_iff.mpr ⟨_, hi⟩, ih⟩

theorem Spells.congr {is js : List Instruction} {kinds : List TokenKind} (h : Spells is kinds)
    (he : is.map Instruction.unlocated = js.map Instruction.unlocated) : Spells js kinds := by
  obtain ⟨pieces, rfl, hs⟩ := h
  refine ⟨pieces, rfl, ?_⟩
  induction hs generalizing js with
  | nil =>
    cases List.map_eq_nil_iff.mp he.symm
    exact .nil
  | cons hi _ ih =>
    obtain ⟨j, js, rfl, hj, hjs⟩ := List.map_eq_cons_iff.mp he.symm
    exact .cons (hi.congr hj.symm) (ih hjs.symm)

theorem Spells.eq_nil {instructions : List Instruction} (h : Spells instructions []) :
    instructions = [] := by
  obtain ⟨pieces, hpieces, hs⟩ := h
  cases hs with
  | nil => rfl
  | cons hi _ => exact absurd (List.append_eq_nil_iff.mp hpieces.symm).1 hi.ne_nil

/-! ## Respelling -/

theorem bitsName_injective : Function.Injective bitsName := by
  have hinj : Function.Injective fun bit : Bool => if bit then '1' else '0' := by decide
  intro a b h
  exact List.map_injective_iff.mpr hinj (String.ofList_injective h)

theorem Operand.Spelling.respelling {kind : Option OperandKind} {operand : Option Operand}
    {kinds kinds' : List TokenKind} (h : Operand.Spelling kind operand kinds)
    (h' : Operand.Spelling kind operand kinds') :
    kinds = kinds' ∨ ∃ a b : Binary.Numeral, kind = some .number ∧
      Word.InRange a.value ∧ a.Agrees b ∧ kinds = a.tokens ∧ kinds' = b.tokens := by
  cases h with
  | none =>
    cases h'
    exact .inl rfl
  | number a ha hr =>
    cases h' with
    | number b hb =>
      exact .inr ⟨a, b, rfl, ha ▸ hr, Binary.Numeral.value_eq_iff.mp (ha.trans hb.symm), rfl, rfl⟩
  | label bits hb =>
    cases h' with
    | label bits' hb' =>
      rw [bitsName_injective (hb.trans hb'.symm)]
      exact .inl rfl

/-- Two spellings of one instruction differ in nothing but leading zeros and the sign of zero. -/
theorem Instruction.Spelling.respelling {i j : Instruction} {kinds kinds' : List TokenKind}
    (h : i.Spelling kinds) (h' : j.Spelling kinds') (hij : i.unlocated = j.unlocated) :
    Respelling kinds kinds' := by
  have hi := h
  obtain ⟨hf, operand, ho, rfl⟩ := h
  obtain ⟨-, operand', ho', rfl⟩ := h'.congr hij.symm
  rcases ho.respelling ho' with rfl | ⟨a, b, hk, hr, hab, rfl, rfl⟩
  · exact .same hi
  · rw [hf]
    exact .number hk hr hab

/-- What is respelled is one instruction. -/
theorem Respelling.spelling {kinds kinds' : List TokenKind} (h : Respelling kinds kinds') :
    ∃ i : Instruction, i.Spelling kinds ∧ i.Spelling kinds' := by
  cases h with
  | same hs => exact ⟨_, hs, hs⟩
  | @number c a b hk hr hab =>
    have hv := Binary.Numeral.value_eq_iff.mpr hab
    refine ⟨⟨c.family, c, some (.number a.value), none⟩, ⟨rfl, _, ?_, rfl⟩, rfl, _, ?_, rfl⟩
    · rw [hk]
      exact .number a rfl hr
    · rw [hk]
      exact .number b hv.symm hr

theorem Spells.respells {is js : List Instruction} {kinds kinds' : List TokenKind}
    (h : Spells is kinds) (h' : Spells js kinds')
    (he : is.map Instruction.unlocated = js.map Instruction.unlocated) : Respells kinds kinds' := by
  obtain ⟨pieces, rfl, hs⟩ := h
  obtain ⟨pieces', rfl, hs'⟩ := h'
  refine ⟨pieces, pieces', rfl, rfl, ?_⟩
  induction hs generalizing js pieces' with
  | nil =>
    cases List.map_eq_nil_iff.mp he.symm
    cases hs'
    exact .nil
  | cons hi _ ih =>
    obtain ⟨j, js, rfl, hj, hjs⟩ := List.map_eq_cons_iff.mp he.symm
    cases hs' with
    | cons hj' hs' => exact .cons (hi.respelling hj' hj.symm) (ih hjs.symm _ hs')

theorem Respells.spells {kinds kinds' : List TokenKind} (h : Respells kinds kinds') :
    ∃ instructions, Spells instructions kinds ∧ Spells instructions kinds' := by
  obtain ⟨pieces, pieces', rfl, rfl, hs⟩ := h
  induction hs with
  | nil => exact ⟨[], ⟨[], rfl, .nil⟩, [], rfl, .nil⟩
  | cons hp _ ih =>
    obtain ⟨i, hi, hi'⟩ := hp.spelling
    obtain ⟨instructions, ⟨qs, hq, hqs⟩, qs', hq', hqs'⟩ := ih
    exact ⟨i :: instructions, ⟨_ :: qs, by rw [List.flatten_cons, hq, List.flatten_cons],
      .cons hi hqs⟩, _ :: qs', by rw [List.flatten_cons, hq', List.flatten_cons], .cons hi' hqs'⟩

theorem decode_respells_iff {file : String} {tokens tokens' : List Token}
    {decoded decoded' : List Instruction} (h : decode file tokens = .ok decoded)
    (h' : decode file tokens' = .ok decoded') :
    decoded.map Instruction.unlocated = decoded'.map Instruction.unlocated ↔
      Respells (tokens.map Token.kind) (tokens'.map Token.kind) := by
  constructor
  · exact (spells_of_decode_ok h).respells (spells_of_decode_ok h')
  · intro hr
    obtain ⟨instructions, hs, hs'⟩ := hr.spells
    obtain ⟨_, hd, hl⟩ := decode_ok_of_spells file hs
    obtain ⟨_, hd', hl'⟩ := decode_ok_of_spells file hs'
    rw [h] at hd
    rw [h'] at hd'
    cases hd
    cases hd'
    rw [hl, hl']

/-! ## Assembling -/

theorem kinds_tokensFrom (encoding : Encoding) (kinds : List TokenKind) (position : Position) :
    (Source.tokensFrom encoding position (kinds.map encoding.char)).map Token.kind = kinds := by
  induction kinds generalizing position with
  | nil => rfl
  | cons k kinds ih =>
    simp only [List.map_cons, Source.tokensFrom, encoding.kind?_char, ih]

theorem kinds_assemble (encoding : Encoding) (instructions : List Instruction) :
    (Source.ofText encoding (assemble encoding instructions)).tokens.map Token.kind =
      instructions.flatMap Instruction.encode := by
  unfold assemble Source.ofText Source.tokens
  rw [String.toList_ofList]
  exact kinds_tokensFrom ..

theorem spells_encode {instructions : List Instruction} (h : ∀ i ∈ instructions, i.IsEncodable) :
    Spells instructions (instructions.flatMap Instruction.encode) := by
  refine ⟨instructions.map Instruction.encode, rfl, ?_⟩
  rw [List.forall₂_map_right_iff, List.forall₂_same]
  exact fun i hi => (h i hi).spelling

/-! ## The grammar -/

/-- The decoder accepts exactly the grammar: tokens decode to instructions, places aside, if and
only if they are spellings of them, one after the other. Hence what is assembled is decoded again,
and tokens that decode to the same instructions differ in nothing but leading zeros and the sign of
zero. -/
theorem decode_accepts_exactly_spellings (file : String) :
    (∀ tokens instructions,
      (∃ decoded, decode file tokens = .ok decoded ∧
        decoded.map Instruction.unlocated = instructions.map Instruction.unlocated) ↔
      Spells instructions (tokens.map Token.kind)) ∧
    (∀ encoding instructions, (∀ i ∈ instructions, i.IsEncodable) →
      ∃ decoded,
        decode file (Source.ofText encoding (assemble encoding instructions)).tokens = .ok decoded ∧
        decoded.map Instruction.unlocated = instructions.map Instruction.unlocated) ∧
    ∀ tokens tokens' decoded decoded',
      decode file tokens = .ok decoded → decode file tokens' = .ok decoded' →
      (decoded.map Instruction.unlocated = decoded'.map Instruction.unlocated ↔
        Respells (tokens.map Token.kind) (tokens'.map Token.kind)) := by
  refine ⟨fun tokens instructions => ⟨?_, decode_ok_of_spells file⟩, ?_, ?_⟩
  · rintro ⟨decoded, hd, hl⟩
    exact (spells_of_decode_ok hd).congr hl
  · intro encoding instructions h
    apply decode_ok_of_spells
    rw [kinds_assemble]
    exact spells_encode h
  · intro tokens tokens' decoded decoded' h h'
    exact decode_respells_iff h h'

end Whitespace
