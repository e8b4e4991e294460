import Whitespace.Program
import Whitespace.Proofs.Grammar.Decoding

/-!
# Linked programs

Linking gives every label the position of the last mark of its name. What is linked from decoded
instructions is well formed: families and operands belong to their commands, numbers are words, and
labels lead into the program.

Results:
1. `labelTable_getElem?`: the label table holds the position of the last mark of each name.
2. `Program.parse_ok_iff`: what a text is the program of.
3. `Program.wellFormed_of_parse`: the program of a text is well formed.
-/

namespace Whitespace

/-- The position of the last mark of a label name, wherever it stands. -/
def lastMark? (name : String) : List Instruction → Option Nat
  | [] => none
  | i :: rest =>
    match lastMark? name rest with
    | some position => some (position + 1)
    | none => if i.definedLabel? = some name then some 0 else none

def Operand.resolve (table : LabelTable) : Operand → Operand
  | number value => .number value
  | label name target => .label name ((table[name]?.map Int.ofNat).or target)

/-- The instructions of a program are consistent, their numbers are words, and their labels lead to
marks of the program. -/
structure Program.WellFormed (p : Program) : Prop where
  consistent : ∀ i ∈ p.instructions, i.IsConsistent
  number : ∀ i ∈ p.instructions, ∀ value, i.number? = some value → Word.InRange value
  target : ∀ i ∈ p.instructions, ∀ name target, i.operand = some (.label name (some target)) →
    ∃ mark, p.at? target = some mark ∧ mark.definedLabel? = some name

/-! ## The last mark -/

theorem lastMark?_append (name : String) (is : List Instruction) (i : Instruction) :
    lastMark? name (is ++ [i]) =
      if i.definedLabel? = some name then some is.length else lastMark? name is := by
  induction is with
  | nil => rfl
  | cons j is ih =>
    rw [List.cons_append, lastMark?, ih, lastMark?]
    by_cases h : i.definedLabel? = some name
    · simp [h]
    · simp [h]

/-- The last mark of a name is a mark of that name. -/
theorem lastMark?_sound {name : String} {is : List Instruction} {position : Nat}
    (h : lastMark? name is = some position) :
    ∃ mark, is[position]? = some mark ∧ mark.definedLabel? = some name := by
  induction is generalizing position with
  | nil => cases h
  | cons i is ih =>
    rw [lastMark?] at h
    split at h
    · next n hn =>
      cases h
      exact ih hn
    · split at h
      · next hi =>
        cases h
        exact ⟨i, rfl, hi⟩
      · cases h

/-- There is no last mark of a name exactly if no mark has the name. -/
theorem lastMark?_eq_none_iff {name : String} {is : List Instruction} :
    lastMark? name is = none ↔ ∀ i ∈ is, i.definedLabel? ≠ some name := by
  induction is with
  | nil => simp [lastMark?]
  | cons i is ih =>
    rw [lastMark?, List.forall_mem_cons, ← ih]
    cases lastMark? name is with
    | none => simp
    | some n => simp

/-! ## The label table -/

theorem labelTable_append (is : List Instruction) (i : Instruction) :
    labelTable (is ++ [i]) =
      match i.definedLabel? with
      | some name => (labelTable is).insert name is.length
      | none => labelTable is := by
  unfold labelTable
  rw [List.zipIdx_append, List.foldl_append]
  cases h : i.definedLabel? <;> simp [h]

/-- The label table is told by the names that are marked, and where. -/
theorem labelTable_congr {is js : List Instruction}
    (h : is.map Instruction.definedLabel? = js.map Instruction.definedLabel?) :
    labelTable is = labelTable js := by
  have marked (is : List Instruction) :
      labelTable is = (is.map Instruction.definedLabel?).zipIdx.foldl (fun table (mark, index) =>
        match mark with
        | some name => table.insert name index
        | none => table) ∅ := by
    rw [List.zipIdx_map, List.foldl_map]
    rfl
  rw [marked, marked, h]

/-- The label table holds the position of the last mark of each name. -/
theorem labelTable_getElem? (is : List Instruction) (name : String) :
    (labelTable is)[name]? = lastMark? name is := by
  -- The table is filled from the front, so the induction takes instructions off the end.
  induction is using List.reverseRecOn with
  | nil => exact Std.TreeMap.getElem?_emptyc
  | append_singleton is i ih =>
    rw [labelTable_append, lastMark?_append]
    cases hd : i.definedLabel? with
    | none => simpa using ih
    | some other =>
      simp only [Std.TreeMap.getElem?_insert, Std.LawfulEqCmp.compare_eq_iff_eq, ih,
        Option.some.injEq]

/-! ## Resolving -/

namespace Instruction

theorem number?_eq_some_iff {i : Instruction} {value : Int} :
    i.number? = some value ↔ i.operand = some (.number value) := by
  rcases i with ⟨family, command, _ | ⟨other⟩ | ⟨name, target⟩, location⟩ <;> simp [number?]

theorem labelName?_eq_some_iff {i : Instruction} {name : String} :
    i.labelName? = some name ↔ ∃ target, i.operand = some (.label name target) := by
  rcases i with ⟨family, command, _ | ⟨value⟩ | ⟨other, target⟩, location⟩ <;> simp [labelName?]

theorem resolve_eq (table : LabelTable) (i : Instruction) :
    i.resolve table = { i with operand := i.operand.map (Operand.resolve table) } := by
  rcases i with ⟨family, command, _ | ⟨value⟩ | ⟨name, target⟩, location⟩
  · rfl
  · rfl
  · simp only [resolve, Option.map_some, Operand.resolve]
    cases table[name]? <;> rfl

theorem resolve_number? (table : LabelTable) (i : Instruction) :
    (i.resolve table).number? = i.number? := by
  rw [resolve_eq]
  rcases i with ⟨family, command, _ | ⟨value⟩ | ⟨name, target⟩, location⟩ <;> rfl

theorem resolve_labelName? (table : LabelTable) (i : Instruction) :
    (i.resolve table).labelName? = i.labelName? := by
  rw [resolve_eq]
  rcases i with ⟨family, command, _ | ⟨value⟩ | ⟨name, target⟩, location⟩ <;> rfl

theorem resolve_definedLabel? (table : LabelTable) (i : Instruction) :
    (i.resolve table).definedLabel? = i.definedLabel? := by
  unfold definedLabel?
  rw [resolve_labelName?, resolve_eq]

theorem IsConsistent.resolve {i : Instruction} (h : i.IsConsistent) (table : LabelTable) :
    (i.resolve table).IsConsistent := by
  rw [resolve_eq]
  refine ⟨h.1, Eq.trans ?_ h.2⟩
  rcases i with ⟨family, command, _ | ⟨value⟩ | ⟨name, target⟩, location⟩ <;> rfl

end Instruction

/-! ## Programs of texts -/

namespace Program

theorem link_instructions (is : List Instruction) :
    (link is).instructions = (is.map (Instruction.resolve (labelTable is))).toArray :=
  rfl

theorem mem_link {is : List Instruction} {i : Instruction} :
    i ∈ (link is).instructions ↔ ∃ j ∈ is, i = j.resolve (labelTable is) := by
  rw [link_instructions, List.mem_toArray, List.mem_map]
  simp only [eq_comm]

theorem size_link (is : List Instruction) : (link is).size = is.length := by
  simp [size, link_instructions]

theorem at?_ofList (is : List Instruction) (position : Nat) :
    (ofList is).at? position = is[position]? := by
  have hpos : ¬(position : Int) < 0 := by omega
  simp [at?, ofList, hpos]

theorem at?_link (is : List Instruction) (position : Int) :
    (link is).at? position =
      ((ofList is).at? position).map (Instruction.resolve (labelTable is)) := by
  unfold at?
  split
  · rfl
  · simp [link_instructions, ofList]

/-- The program of a text is linked from the instructions that the text decodes to. -/
theorem parse_ok_iff {file text : String} {encoding : Encoding} {p : Program} :
    parse file encoding text = .ok p ↔
      ∃ is, decode file (Source.ofText encoding text).tokens = .ok is ∧ p = link is := by
  unfold parse
  cases decode file (Source.ofText encoding text).tokens with
  | error failure => simp [Except.map]
  | ok is => simp [Except.map, eq_comm]

theorem parse_error_iff {file text : String} {encoding : Encoding} {failure : DecodeFailure} :
    parse file encoding text = .error failure ↔
      decode file (Source.ofText encoding text).tokens = .error failure := by
  unfold parse
  cases decode file (Source.ofText encoding text).tokens with
  | ok is => simp [Except.map]
  | error other => simp [Except.map]

theorem wellFormed_link {is : List Instruction} (h : ∀ i ∈ is, i.IsEncodable) :
    (link is).WellFormed := by
  refine ⟨?_, ?_, ?_⟩
  · intro i hi
    obtain ⟨j, hj, rfl⟩ := mem_link.mp hi
    exact (h j hj).1.resolve _
  · intro i hi value hv
    obtain ⟨j, hj, rfl⟩ := mem_link.mp hi
    rw [Instruction.resolve_number?, Instruction.number?_eq_some_iff] at hv
    exact (h j hj).2 _ hv
  · intro i hi name target ho
    obtain ⟨j, hj, rfl⟩ := mem_link.mp hi
    rw [Instruction.resolve_eq] at ho
    obtain ⟨operand, hoj, ho⟩ := Option.map_eq_some_iff.mp ho
    cases operand with
    | number value => cases ho
    | label other unset =>
      -- What is decoded has no target of its own: it is the one of the table.
      obtain ⟨-, rfl⟩ := (h j hj).2 _ hoj
      rw [Operand.resolve, labelTable_getElem?, Option.or_none] at ho
      obtain ⟨rfl, ht⟩ := Operand.label.inj ho
      obtain ⟨position, hp, rfl⟩ := Option.map_eq_some_iff.mp ht
      obtain ⟨mark, hm, hd⟩ := lastMark?_sound hp
      refine ⟨mark.resolve (labelTable is), ?_, ?_⟩
      · rw [Int.ofNat_eq_natCast, at?_link, at?_ofList, hm]
        rfl
      · rw [Instruction.resolve_definedLabel?, hd]

/-- The program of a text is well formed. -/
theorem wellFormed_of_parse {file text : String} {encoding : Encoding} {p : Program}
    (h : parse file encoding text = .ok p) : p.WellFormed := by
  obtain ⟨is, hd, rfl⟩ := parse_ok_iff.mp h
  exact wellFormed_link (isEncodable_of_decode_ok hd)

/-- The labels of a text are made of two digits. -/
theorem digits_of_label {file text : String} {encoding : Encoding} {p : Program}
    (parsed : parse file encoding text = .ok p) {i : Instruction} (hi : i ∈ p.instructions)
    {label : String} (hlabel : i.labelName? = some label) :
    ∀ c ∈ label.toList, c = '0' ∨ c = '1' := by
  obtain ⟨is, hd, rfl⟩ := parse_ok_iff.mp parsed
  obtain ⟨j, hj, rfl⟩ := mem_link.mp hi
  rw [Instruction.resolve_labelName?] at hlabel
  obtain ⟨target, ho⟩ := Instruction.labelName?_eq_some_iff.mp hlabel
  exact ((isEncodable_of_decode_ok hd j hj).2 _ ho).1

end Program

end Whitespace
