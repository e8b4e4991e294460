import Whitespace.Proofs.Machine.Course

/-!
# Slides

A slide removes so many values from beneath the top of the stack, or all of them if there are not
that many. The same is left when the top of the stack is swapped with the value beneath it and that
value discarded, time after time, as long as the count says and there is a value beneath the top.

Results:
1. `Machine.step_slide`: what a slide leaves.
2. `Machine.SwapsAndDiscards.exists_course`: what swaps and discards leave, time after time.
3. `Machine.slide_is_swaps_and_discards`: they leave the same.
-/

namespace Whitespace.Machine

variable {p : Program} {m : Machine} {i : Instruction} {code : List Instruction}
  {count top value : Int} {rest removed kept : List Int} {times : Nat}

/-- The instructions stand in the program from the pointer of the machine on, which has not
exited. -/
def Faces (p : Program) (m : Machine) (code : List Instruction) : Prop :=
  m.done = false ∧ ∃ before behind,
    p.instructions.toList = before ++ code ++ behind ∧ m.pointer = before.length

/-- So many times a swap and then a discard. -/
inductive SwapsAndDiscards : Nat → List Instruction → Prop
  | nil : SwapsAndDiscards 0 []
  | cons {swap discard : Instruction} {times : Nat} {code : List Instruction}
      (swaps : swap.Is .swap) (discards : discard.Is .discard)
      (rest : SwapsAndDiscards times code) :
      SwapsAndDiscards (times + 1) (swap :: discard :: code)

theorem Faces.next (h : m.Faces p (i :: code)) : m.next p = .instruction i := by
  obtain ⟨going, before, behind, split, pointer⟩ := h
  have stands : p.instructions[before.length]? = some i := by
    rw [← Array.getElem?_toList, split]
    simp
  have inside := (Array.getElem?_eq_some_iff.mp stands).1
  have fetched : p.fetch? m.pointer = some i := by
    rw [p.fetch?_eq_at? (by omega), pointer, Program.at?, if_neg (by omega), Int.toNat_natCast]
    exact stands
  have running : ¬(m.done = true ∨ (p.size : Int) ≤ m.pointer) := by
    rw [going, pointer, Program.size]
    simpa using inside
  unfold Machine.next
  rw [if_neg running, fetched]

/-- Behind an instruction that leads nowhere else, the machine faces what stands behind it. -/
theorem Faces.advance {m' : Machine} (h : m.Faces p (i :: code)) (going : m'.done = m.done)
    (pointer : m'.pointer = m.pointer + 1) : m'.Faces p code := by
  obtain ⟨before_going, before, behind, split, at_before⟩ := h
  refine ⟨going.trans before_going, before ++ [i], behind, ?_, ?_⟩
  · rw [split, List.append_assoc, List.append_assoc, List.append_assoc]
    rfl
  · rw [pointer, at_before, List.length_append, List.length_singleton]
    rfl

/-- A slide leaves the top of the stack, and beneath it what stands deeper than the count says. -/
theorem step_slide (next : m.next p = .instruction i) (is : i.Is .slide)
    (operand : i.number? = some count) (nonneg : 0 ≤ count) (stack : m.stack = top :: rest) :
    m.step p = .completed
      { m.record i with stack := top :: rest.drop count.toNat, pointer := m.pointer + 1 } :=
  step_of_completed next (.slide is operand stack (by omega))

theorem exists_perform_swap (swaps : i.Is .swap) (stack : m.stack = top :: value :: rest) :
    ∃ m', m.perform i = .completed m' ∧ m'.stack = value :: top :: rest ∧ m'.done = m.done ∧
      m'.pointer = m.pointer + 1 :=
  ⟨_, perform_of_completed (.swap swaps stack), rfl, rfl, rfl⟩

theorem exists_perform_discard (discards : i.Is .discard) (stack : m.stack = value :: rest) :
    ∃ m', m.perform i = .completed m' ∧ m'.stack = rest ∧ m'.done = m.done ∧
      m'.pointer = m.pointer + 1 :=
  ⟨_, perform_of_completed (.discard discards stack), rfl, rfl, rfl⟩

/-- So many swaps and discards remove as many values from beneath the top of the stack. -/
theorem SwapsAndDiscards.exists_course (h : SwapsAndDiscards times code) (faces : m.Faces p code)
    (stack : m.stack = top :: (removed ++ kept)) (length : removed.length = times) :
    ∃ made m', Course p m made m' ∧ made.map Step.instruction = code ∧
      (∀ s ∈ made, s.stop = none) ∧ m'.stack = top :: kept := by
  induction h generalizing m removed with
  | nil =>
    obtain rfl := List.length_eq_zero_iff.mp length
    exact ⟨[], m, .nil, rfl, List.forall_mem_nil _, stack⟩
  | @cons swap discard times code swaps discards _ ih =>
    -- A swap brings the value beneath the top above it, and the discard takes it away.
    obtain ⟨value, removed, rfl⟩ := List.exists_cons_of_length_eq_add_one length
    obtain ⟨m₁, swapped, stack₁, going₁, pointer₁⟩ := exists_perform_swap swaps stack
    obtain ⟨m₂, discarded, stack₂, going₂, pointer₂⟩ := exists_perform_discard discards stack₁
    have faces₁ : m₁.Faces p (discard :: code) := faces.advance going₁ pointer₁
    have faces₂ : m₂.Faces p code := faces₁.advance going₂ pointer₂
    obtain ⟨made, m', course, same, complete, left⟩ := ih faces₂ stack₂ (Nat.succ.inj length)
    refine ⟨⟨m, swap⟩ :: ⟨m₁, discard⟩ :: made, m', ?_, ?_, ?_, left⟩
    · refine .cons faces.next ?_
      rw [swapped]
      refine .cons faces₁.next ?_
      rw [Effect.completed_machine, discarded]
      exact course
    · rw [List.map_cons, List.map_cons, same]
    · rw [List.forall_mem_cons, List.forall_mem_cons]
      exact ⟨congrArg Effect.stop swapped, congrArg Effect.stop discarded, complete⟩

/-- A slide on a stack that is not empty completes, if its count is not negative. The top of the
stack stays on top, the values that stand next beneath it are removed, as many as the count says or
as there are, and all that is deeper stays in its order. Wherever as many swaps and discards are
next on the same stack, they all complete and leave the same. -/
theorem slide_is_swaps_and_discards (next : m.next p = .instruction i) (is : i.Is .slide)
    (operand : i.number? = some count) (nonneg : 0 ≤ count) (stack : m.stack = top :: rest) :
    ∃ removed kept, rest = removed ++ kept ∧
      removed.length = min count.toNat (m.stack.length - 1) ∧
      m.step p = .completed
        { m.record i with stack := top :: kept, pointer := m.pointer + 1 } ∧
      ∀ q m' code, m'.stack = m.stack →
        SwapsAndDiscards (min count.toNat (m.stack.length - 1)) code → m'.Faces q code →
        ∃ made m'', Course q m' made m'' ∧ made.map Step.instruction = code ∧
          (∀ s ∈ made, s.stop = none) ∧ m''.stack = top :: kept := by
  have split := (List.take_append_drop count.toNat rest).symm
  have length : (rest.take count.toNat).length = min count.toNat (m.stack.length - 1) := by
    rw [List.length_take, stack, List.length_cons, Nat.add_sub_cancel]
  refine ⟨_, _, split, length, step_slide next is operand nonneg stack, ?_⟩
  intro q m' code same removal faces
  exact removal.exists_course faces (same.trans (by rw [stack, ← split])) length

def threeValues : Machine :=
  { start 0 false (.ofText "") with stack := [3, 2, 1] }

def slideSeven : Instruction :=
  ⟨.stack, .slide, some (.number 7), none⟩

def twoSwapsAndDiscards : List Instruction :=
  [⟨.stack, .swap, none, none⟩, ⟨.stack, .discard, none, none⟩,
    ⟨.stack, .swap, none, none⟩, ⟨.stack, .discard, none, none⟩]

/-- A count beyond the depth of the stack leaves nothing but the top, as do as many swaps and
discards as there are values beneath it. -/
theorem slide_past_bottom :
    threeValues.next (.ofList [slideSeven]) = .instruction slideSeven ∧
      (threeValues.step (.ofList [slideSeven])).stop = none ∧
      (threeValues.step (.ofList [slideSeven])).machine.stack = [3] ∧
      ∃ made m', Course (.ofList twoSwapsAndDiscards) threeValues made m' ∧
        made.map Step.instruction = twoSwapsAndDiscards ∧ m'.stack = [3] := by
  have next : threeValues.next (.ofList [slideSeven]) = .instruction slideSeven := rfl
  have operand : slideSeven.number? = some 7 := rfl
  have removal : SwapsAndDiscards 2 twoSwapsAndDiscards :=
    .cons ⟨rfl, rfl⟩ ⟨rfl, rfl⟩ (.cons ⟨rfl, rfl⟩ ⟨rfl, rfl⟩ .nil)
  have faces : threeValues.Faces (.ofList twoSwapsAndDiscards) twoSwapsAndDiscards :=
    ⟨rfl, [], [], rfl, rfl⟩
  obtain ⟨removed, kept, split, length, stepped, same⟩ :=
    slide_is_swaps_and_discards next ⟨rfl, rfl⟩ operand (by decide) rfl
  obtain ⟨made, m', course, code, -, left⟩ := same _ threeValues _ rfl removal faces
  obtain rfl : kept = [] := by
    have whole := congrArg List.length split
    rw [List.length_append, length] at whole
    exact List.length_eq_zero_iff.mp (Nat.add_left_cancel (n := 2) whole).symm
  rw [stepped]
  exact ⟨next, rfl, rfl, made, m', course, code, left⟩

end Whitespace.Machine
