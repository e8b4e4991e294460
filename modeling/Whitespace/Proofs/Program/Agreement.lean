import Whitespace.Proofs.Grammar.Places
import Whitespace.Proofs.Program.Linking

/-!
# Programs that agree

Two programs agree if they are the same but for the places of their instructions. What a text is the
program of depends on nothing but the kinds of its tokens; and how many line feeds these are shows in
the commands of the program.

Results:
1. `Program.parse_congr`: texts of the same tokens have programs that agree, or fail alike.
2. `Program.lineFeeds_of_parse`: the line feeds of a text are those of its program.
-/

namespace Whitespace

def DecodeFailure.name : DecodeFailure → String
  | malformed error => error.fault.name
  | digitLimit => "ValueError"

/-- The number of line feeds in every spelling of a command and its operand. -/
def Command.lineFeeds (c : Command) : Nat :=
  (c.family.code ++ c.code).count .lineFeed + if c.operandKind?.isSome then 1 else 0

namespace Program

/-- The programs are the same but for the places of their instructions. -/
def Agrees (p q : Program) : Prop :=
  p.instructions.toList.map Instruction.unlocated = q.instructions.toList.map Instruction.unlocated

/-- Both are programs, which agree, or both are failures, which are reported under one name. -/
inductive Alike : Except DecodeFailure Program → Except DecodeFailure Program → Prop
  | programs {p q : Program} (agrees : p.Agrees q) : Alike (.ok p) (.ok q)
  | failures {f g : DecodeFailure} (name : f.name = g.name) : Alike (.error f) (.error g)

def lineFeeds (p : Program) : Nat :=
  (p.instructions.toList.map fun i => i.command.lineFeeds).sum

end Program

/-! ## Linking -/

theorem Instruction.unlocated_resolve (table : LabelTable) (i : Instruction) :
    (i.resolve table).unlocated = i.unlocated.resolve table := by
  rw [resolve_eq, resolve_eq]
  rfl

/-- Marks define their labels wherever they stand. -/
theorem labelTable_unlocated (is : List Instruction) :
    labelTable (is.map Instruction.unlocated) = labelTable is := by
  refine labelTable_congr ?_
  rw [List.map_map]
  rfl

namespace Program

theorem link_unlocated (is : List Instruction) :
    (link is).instructions.toList.map Instruction.unlocated =
      resolveLabels (is.map Instruction.unlocated) := by
  simp only [link_instructions, resolveLabels, labelTable_unlocated, List.map_map]
  exact List.map_congr_left fun i _ => Instruction.unlocated_resolve _ i

theorem Agrees.link {is js : List Instruction}
    (h : is.map Instruction.unlocated = js.map Instruction.unlocated) :
    (link is).Agrees (link js) := by
  rw [Agrees, link_unlocated, link_unlocated, h]

/-! ## Texts of the same tokens -/

section

variable {file : String} {f : Position → Position}

theorem unlocated_move (is : List Instruction) :
    (is.map (Instruction.move file f)).map Instruction.unlocated = is.map Instruction.unlocated := by
  rw [List.map_map]
  rfl

theorem name_move (failure : DecodeFailure) : (failure.move file f).name = failure.name := by
  cases failure <;> rfl

end

theorem decode_congr {file file' : String} {tokens tokens' : List Token}
    (h : tokens.map Token.kind = tokens'.map Token.kind) :
    Alike ((decode file tokens).map link) ((decode file' tokens').map link) := by
  -- Moved to one place the tokens are the same, so both sides decode to the same.
  have hmove (ts : List Token) :
      ts.map (Token.move fun _ => .start) = (ts.map Token.kind).map (⟨·, .start⟩) := by
    rw [List.map_map]
    rfl
  have hdecode : decode "" (tokens.map (Token.move fun _ => .start)) =
      decode "" (tokens'.map (Token.move fun _ => .start)) := by
    rw [hmove, hmove, h]
  rw [decode_move file, decode_move file'] at hdecode
  cases hd : decode file tokens with
  | error failure =>
    cases hd' : decode file' tokens' with
    | error failure' =>
      rw [hd, hd'] at hdecode
      refine .failures ?_
      rw [← name_move failure, ← name_move failure', Except.error.inj hdecode]
    | ok is' => rw [hd, hd'] at hdecode; cases hdecode
  | ok is =>
    cases hd' : decode file' tokens' with
    | error failure' => rw [hd, hd'] at hdecode; cases hdecode
    | ok is' =>
      rw [hd, hd'] at hdecode
      refine .programs (Agrees.link ?_)
      rw [← unlocated_move is, ← unlocated_move is', Except.ok.inj hdecode]

/-- Texts of the same tokens have programs that agree, or fail alike. -/
theorem parse_congr {file file' text text' : String} {encoding : Encoding}
    (h : text.toList.filterMap encoding.kind? = text'.toList.filterMap encoding.kind?) :
    Alike (parse file encoding text) (parse file' encoding text') :=
  decode_congr (by rw [kinds_ofText, kinds_ofText, h])

end Program

/-! ## Line feeds -/

theorem count_lineFeed_ofBits (bits : List Bool) :
    (bits.map TokenKind.ofBit).count .lineFeed = 0 := by
  refine List.count_eq_zero.mpr fun hmem => ?_
  obtain ⟨bit, -, h⟩ := List.mem_map.mp hmem
  cases bit <;> cases h

theorem Operand.Spelling.count_lineFeed {kind : Option OperandKind} {operand : Option Operand}
    {kinds : List TokenKind} (h : Operand.Spelling kind operand kinds) :
    kinds.count .lineFeed = if kind.isSome then 1 else 0 := by
  cases h with
  | none => rfl
  | number n =>
    have hbits := count_lineFeed_ofBits (n.negative :: n.bits)
    rw [List.map_cons] at hbits
    rw [Binary.Numeral.tokens, List.count_append, hbits]
    rfl
  | label bits =>
    rw [List.count_append, count_lineFeed_ofBits]
    rfl

theorem Instruction.Spelling.count_lineFeed {i : Instruction} {kinds : List TokenKind}
    (h : i.Spelling kinds) : kinds.count .lineFeed = i.command.lineFeeds := by
  obtain ⟨hf, operand, ho, rfl⟩ := h
  rw [List.count_append, ho.count_lineFeed, hf]
  rfl

theorem Spells.count_lineFeed {is : List Instruction} {kinds : List TokenKind}
    (h : Spells is kinds) :
    kinds.count .lineFeed = (is.map fun i => i.command.lineFeeds).sum := by
  obtain ⟨pieces, rfl, hs⟩ := h
  induction hs with
  | nil => rfl
  | cons hi _ ih =>
    rw [List.flatten_cons, List.count_append, hi.count_lineFeed, ih, List.map_cons, List.sum_cons]

namespace Program

theorem lineFeeds_link (is : List Instruction) :
    (link is).lineFeeds = (is.map fun i => i.command.lineFeeds).sum := by
  have hcommand (i : Instruction) : (i.resolve (labelTable is)).command = i.command := by
    rw [Instruction.resolve_eq]
  simp only [lineFeeds, link_instructions, List.map_map, Function.comp_def, hcommand]

/-- The line feeds of a text are those of its program. -/
theorem lineFeeds_of_parse {file text : String} {encoding : Encoding} {p : Program}
    (h : parse file encoding text = .ok p) :
    (text.toList.filterMap encoding.kind?).count .lineFeed = p.lineFeeds := by
  obtain ⟨is, hd, rfl⟩ := parse_ok_iff.mp h
  rw [lineFeeds_link, ← kinds_ofText]
  exact (spells_of_decode_ok hd).count_lineFeed

theorem Agrees.lineFeeds_eq {p q : Program} (h : p.Agrees q) : p.lineFeeds = q.lineFeeds := by
  have hsum (p : Program) : p.lineFeeds =
      ((p.instructions.toList.map Instruction.unlocated).map fun i => i.command.lineFeeds).sum := by
    rw [List.map_map]
    rfl
  rw [hsum, hsum, h]

end Program

end Whitespace
