import Whitespace.Proofs.Program.Linking

/-!
# Resolving labels

Linking takes any list of instructions, also one that no text decodes to. A label of a name that is
marked leads to the last mark of that name afterwards, wherever it may have led before; nothing else
changes. Which names are marked where does not depend on where labels lead, so linking what was
linked finds the same marks and changes nothing.

Results:
1. `lastMark?_eq_some_iff`, `labelTable_eq_some_iff`: the last mark of a name, by positions.
2. `resolveLabels_resolveLabels`: resolving a second time changes nothing.
3. `Program.linking_exact_and_idempotent`: what linking does to any list of instructions.
-/

namespace Whitespace

/-- The instruction is a mark with a label of this name. Neither its family nor where its label
leads matters. -/
def Instruction.Marks (i : Instruction) (name : String) : Prop :=
  i.command = .mark ∧ ∃ target, i.operand = some (.label name target)

/-- The instruction at the position marks the name, and none behind it does. -/
structure IsLastMark (is : List Instruction) (name : String) (position : Nat) : Prop where
  marks : ∃ mark, is[position]? = some mark ∧ mark.Marks name
  last : ∀ later mark, position < later → is[later]? = some mark → ¬mark.Marks name

/-- Among the instructions `is` the instruction `i` resolves to `j`: the label of a name that is
marked leads to the last mark of the name, and all else is as before. -/
structure Instruction.ResolvesTo (is : List Instruction) (i j : Instruction) : Prop where
  family : j.family = i.family
  command : j.command = i.command
  location : j.location = i.location
  number : j.number? = i.number?
  labelName : j.labelName? = i.labelName?
  marked : ∀ name target, i.operand = some (.label name target) → (∃ mark ∈ is, mark.Marks name) →
    ∃ position, IsLastMark is name position ∧ j.operand = some (.label name (some position))
  unmarked : (∀ name target, i.operand = some (.label name target) →
    ∀ mark ∈ is, ¬mark.Marks name) → j.operand = i.operand

variable {is : List Instruction} {name : String} {position : Nat}

/-! ## The last mark by positions -/

theorem Instruction.definedLabel?_eq_some_iff {i : Instruction} :
    i.definedLabel? = some name ↔ i.Marks name := by
  unfold definedLabel? Marks
  split
  · next mark => rw [labelName?_eq_some_iff, and_iff_right mark]
  · next other => simp [other]

theorem lastMark?_eq_none_iff_unmarked :
    lastMark? name is = none ↔ ∀ mark ∈ is, ¬mark.Marks name := by
  simp only [lastMark?_eq_none_iff, ne_eq, Instruction.definedLabel?_eq_some_iff]

theorem IsLastMark.unique {position' : Nat} (h : IsLastMark is name position)
    (h' : IsLastMark is name position') : position = position' := by
  obtain ⟨mark, found, marks⟩ := h.marks
  obtain ⟨mark', found', marks'⟩ := h'.marks
  rcases Nat.lt_trichotomy position position' with before | same | behind
  · exact absurd marks' (h.last position' mark' before found')
  · exact same
  · exact absurd marks (h'.last position mark behind found)

theorem isLastMark_of_lastMark? (h : lastMark? name is = some position) :
    IsLastMark is name position := by
  induction is generalizing position with
  | nil => cases h
  | cons i is ih =>
    rw [lastMark?] at h
    split at h
    · next inner found =>
      cases h
      obtain ⟨marks, last⟩ := ih found
      refine ⟨marks, fun later mark behind hmark => ?_⟩
      cases later with
      | zero => exact absurd behind (Nat.not_lt_zero _)
      | succ later => exact last later mark (Nat.lt_of_succ_lt_succ behind) hmark
    · next none =>
      split at h
      · next first =>
        cases h
        have marks : i.Marks name := Instruction.definedLabel?_eq_some_iff.mp first
        refine ⟨⟨i, rfl, marks⟩, fun later mark behind hmark => ?_⟩
        cases later with
        | zero => exact absurd behind (Nat.lt_irrefl 0)
        | succ later =>
          exact lastMark?_eq_none_iff_unmarked.mp none mark (List.mem_of_getElem? hmark)
      · cases h

theorem lastMark?_eq_some_iff :
    lastMark? name is = some position ↔ IsLastMark is name position := by
  refine ⟨isLastMark_of_lastMark?, fun h => ?_⟩
  cases found : lastMark? name is with
  | none =>
    obtain ⟨mark, hmark, marks⟩ := h.marks
    exact absurd marks (lastMark?_eq_none_iff_unmarked.mp found mark (List.mem_of_getElem? hmark))
  | some other => rw [(isLastMark_of_lastMark? found).unique h]

theorem labelTable_eq_some_iff :
    (labelTable is)[name]? = some position ↔ IsLastMark is name position := by
  rw [labelTable_getElem?, lastMark?_eq_some_iff]

/-! ## Resolving -/

theorem Instruction.resolvesTo_resolve (is : List Instruction) (i : Instruction) :
    i.ResolvesTo is (i.resolve (labelTable is)) where
  family := by rw [resolve_eq]
  command := by rw [resolve_eq]
  location := by rw [resolve_eq]
  number := resolve_number? _ i
  labelName := resolve_labelName? _ i
  marked := by
    rintro name target operand ⟨mark, member, marks⟩
    cases found : lastMark? name is with
    | none => exact absurd marks (lastMark?_eq_none_iff_unmarked.mp found mark member)
    | some position =>
      refine ⟨position, isLastMark_of_lastMark? found, ?_⟩
      rw [resolve_eq, operand, Option.map_some, Operand.resolve, labelTable_getElem?, found]
      rfl
  unmarked := by
    intro unmarked
    rw [resolve_eq]
    cases operand : i.operand with
    | none => rfl
    | some o =>
      cases o with
      | number value => rfl
      | label name target =>
        rw [Option.map_some, Operand.resolve, labelTable_getElem?,
          lastMark?_eq_none_iff_unmarked.mpr (unmarked name target operand)]
        rfl

/-- Marks stay where they are, whatever becomes of their targets. -/
theorem labelTable_resolveLabels (is : List Instruction) :
    labelTable (resolveLabels is) = labelTable is := by
  refine labelTable_congr ?_
  rw [resolveLabels, List.map_map]
  exact List.map_congr_left fun i _ => Instruction.resolve_definedLabel? _ i

theorem Operand.resolve_resolve (table : LabelTable) (o : Operand) :
    (o.resolve table).resolve table = o.resolve table := by
  cases o with
  | number value => rfl
  | label name target =>
    simp only [resolve]
    cases table[name]? <;> rfl

theorem Instruction.resolve_resolve (table : LabelTable) (i : Instruction) :
    (i.resolve table).resolve table = i.resolve table := by
  simp only [resolve_eq, Option.map_map, Function.comp_def, Operand.resolve_resolve]

/-- Resolving a second time changes nothing. -/
theorem resolveLabels_resolveLabels (is : List Instruction) :
    resolveLabels (resolveLabels is) = resolveLabels is := by
  have again : resolveLabels (resolveLabels is) =
      (resolveLabels is).map (Instruction.resolve (labelTable is)) := by
    rw [← labelTable_resolveLabels is]
    rfl
  rw [again, resolveLabels, List.map_map]
  exact List.map_congr_left fun i _ => Instruction.resolve_resolve _ i

namespace Program

theorem link_toList (is : List Instruction) : (link is).instructions.toList = resolveLabels is :=
  rfl

/-- Linking is exact and idempotent on any list of instructions. The program has as many
instructions, in the same order; each of them is resolved among the given ones, and otherwise as it
was; and linking the instructions of the program gives the program again. -/
theorem linking_exact_and_idempotent (is : List Instruction) :
    List.Forall₂ (Instruction.ResolvesTo is) is (link is).instructions.toList ∧
      link (link is).instructions.toList = link is := by
  rw [link_toList]
  constructor
  · rw [resolveLabels, List.forall₂_map_right_iff, List.forall₂_same]
    exact fun i _ => i.resolvesTo_resolve is
  · exact congrArg ofList (resolveLabels_resolveLabels is)

/-- Of two marks the last one counts, also if it is of another family, and a target that was there
is replaced. -/
example : resolveLabels
    [⟨.flow, .jump, some (.label "0" (some 7)), none⟩,
      ⟨.flow, .mark, some (.label "0" none), none⟩,
      ⟨.heap, .mark, some (.label "0" none), none⟩,
      ⟨.flow, .call, some (.label "1" (some 7)), none⟩] =
    [⟨.flow, .jump, some (.label "0" (some 2)), none⟩,
      ⟨.flow, .mark, some (.label "0" (some 2)), none⟩,
      ⟨.heap, .mark, some (.label "0" (some 2)), none⟩,
      ⟨.flow, .call, some (.label "1" (some 7)), none⟩] := by
  rfl

end Program

end Whitespace
