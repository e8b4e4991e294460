import Whitespace.Proofs.Machine.Faults
import Whitespace.Proofs.Machine.Unresolved

/-!
# Following labels by name

A reference machine for labels: it runs the instructions as they were decoded, and where it follows
a label it looks for the last mark of that name and continues right behind it. The machine on the
linked program does the same, apart from the targets in the instructions that it remembers and
reports.

Results:
1. `Machine.step_link`: a step of the linked program is a step by name.
2. `Machine.step_unresolvedLabel_iff`: a label is reported as unresolved exactly when it is followed
   and no mark has its name.
3. `Machine.resolution_sound`: both machines go through the same effects.
-/

namespace Whitespace

theorem Instruction.unresolved_resolve (table : LabelTable) (i : Instruction) :
    (i.resolve table).unresolved = i.unresolved := by
  rw [resolve_eq]
  rcases i with ⟨family, command, _ | ⟨value⟩ | ⟨name, target⟩, location⟩ <;> rfl

theorem Instruction.IsEncodable.unresolved {i : Instruction} (h : i.IsEncodable) :
    i.unresolved = i := by
  rcases i with ⟨family, command, _ | ⟨value⟩ | ⟨name, target⟩, location⟩
  · rfl
  · rfl
  · obtain ⟨-, rfl⟩ := h.2 _ rfl
    rfl

/-- The effect when the pointer was advanced; a runtime error is told the step and the position. -/
def Effect.advance (e : Effect) (pointer : Int) (step : Nat) : Effect where
  machine := { e.machine with pointer := e.machine.pointer + 1 }
  stop := e.stop.map (Stop.atStep pointer step)

theorem Stop.atStep_unresolved (pointer : Int) (step : Nat) (stop : Stop) :
    (stop.atStep pointer step).unresolved = stop.unresolved.atStep pointer step := by
  cases stop <;> rfl

theorem Effect.advance_unresolved (e : Effect) (pointer : Int) (step : Nat) :
    (e.advance pointer step).unresolved = e.unresolved.advance pointer step := by
  have hstop : Stop.unresolved ∘ Stop.atStep pointer step =
      Stop.atStep pointer step ∘ Stop.unresolved :=
    funext (Stop.atStep_unresolved pointer step)
  unfold Effect.advance Effect.unresolved
  simp only [Option.map_map, hstop]
  rfl

namespace Machine

/-- Remembers and executes an instruction. A label that is followed leads right behind the last mark
of its name. -/
def performByName (is : List Instruction) (m : Machine) (i : Instruction) : Effect :=
  match m.takenLabel? i with
  | none => m.perform i
  | some name =>
    let consumed := (m.record i).consumeCondition i
    match lastMark? name is with
    | some mark => .completed { consumed.rememberCall i with pointer := mark + 1 }
    | none => (Effect.fault consumed (.unresolvedLabel i)).advance m.pointer m.executed

/-- Executes the next instruction by name, if there is one. -/
def stepByName (is : List Instruction) (m : Machine) : Effect :=
  match m.next (.ofList is) with
  | .halted => .completed m
  | .instruction i => m.performByName is i
  | .outside => .stopped m .outsideProgram

/-! ## Forgetting targets on the way -/

section

variable {m : Machine} {i : Instruction}

theorem record_unresolved (m : Machine) (i : Instruction) :
    (m.record i).unresolved = m.unresolved.record i.unresolved := by
  simp [record, Machine.unresolved, LogEntry.unresolved, List.map_take]

theorem consumeCondition_unresolved (m : Machine) (i : Instruction) :
    (m.consumeCondition i).unresolved = m.unresolved.consumeCondition i.unresolved := by
  unfold consumeCondition
  show (if i.command.condition?.isSome then _ else m).unresolved = _
  split
  · next h => exact (if_pos h).symm
  · next h => exact (if_neg h).symm

theorem rememberCall_unresolved (m : Machine) (i : Instruction) :
    (m.rememberCall i).unresolved = m.unresolved.rememberCall i.unresolved := by
  unfold rememberCall
  split
  · next h => exact (if_pos h).symm
  · next h => exact (if_neg h).symm

theorem takenLabel?_unresolved (m : Machine) (i : Instruction) :
    m.unresolved.takenLabel? i.unresolved = m.takenLabel? i := by
  unfold takenLabel?
  rw [Instruction.labelName?_unresolved]
  rfl

theorem perform_eq (m : Machine) (i : Instruction) :
    m.perform i = ((m.record i).execute i).advance m.pointer m.executed :=
  rfl

theorem perform_unresolved (h : m.takenLabel? i = none) :
    (m.unresolved.perform i.unresolved).unresolved = (m.perform i).unresolved := by
  have ht : (m.record i).takenLabel? i = none := h
  rw [perform_eq, perform_eq, Effect.advance_unresolved, Effect.advance_unresolved,
    ← record_unresolved, execute_unresolved ht]
  rfl

/-! ## The linked program by name -/

variable {is : List Instruction} {m' : Machine} {j : Instruction}

theorem operand_of_taken (is : List Instruction) {name : String} (hj : j.unresolved = j)
    (h : m.takenLabel? j = some name) :
    (j.resolve (labelTable is)).operand =
      some (.label name ((lastMark? name is).map Int.ofNat)) := by
  obtain ⟨target, ho⟩ := Instruction.labelName?_eq_some_iff.mp (takenLabel?_eq_some_iff.mp h).1
  have hu : j.operand = some (.label name none) := by
    rw [← hj, Instruction.unresolved, ho]
    rfl
  rw [Instruction.resolve_eq, hu, ← labelTable_getElem?]
  show some (Operand.label name (((labelTable is)[name]?.map Int.ofNat).or none)) = _
  rw [Option.or_none]

theorem performByName_taken {name : String} (h : m.takenLabel? i = some name) :
    m.performByName is i =
      (lastMark? name is).elim
        ((Effect.fault ((m.record i).consumeCondition i) (.unresolvedLabel i)).advance m.pointer
          m.executed)
        fun mark => .completed
          { ((m.record i).consumeCondition i).rememberCall i with pointer := mark + 1 } := by
  unfold performByName
  simp only [h]
  cases lastMark? name is <;> rfl

/-- An instruction of the linked program has the effect that it has by name. -/
theorem perform_link (hj : j.unresolved = j) (hm : m.unresolved = m'.unresolved) :
    (m.perform (j.resolve (labelTable is))).unresolved = (m'.performByName is j).unresolved := by
  -- The two machines and the two instructions differ in targets only; the target that counts is the
  -- one of the label that is followed.
  have hi := j.unresolved_resolve (labelTable is)
  have hoperand {name : String} (h : m'.takenLabel? j = some name) :=
    operand_of_taken is hj h
  generalize j.resolve (labelTable is) = i at hi hoperand ⊢
  have ht : m.takenLabel? i = m'.takenLabel? j := by
    rw [← takenLabel?_unresolved, ← takenLabel?_unresolved m' j, hm, hi]
  cases hn : m'.takenLabel? j with
  | none =>
    rw [performByName, hn]
    show _ = (m'.perform j).unresolved
    rw [← perform_unresolved (ht.trans hn), hm, hi, perform_unresolved hn]
  | some name =>
    have hp : m.pointer = m'.pointer := by
      show m.unresolved.pointer = m'.unresolved.pointer
      rw [hm]
    have hx : m.executed = m'.executed := by
      show m.unresolved.executed = m'.unresolved.executed
      rw [hm]
    have hc : ((m.record i).consumeCondition i).unresolved =
        ((m'.record j).consumeCondition j).unresolved := by
      rw [consumeCondition_unresolved, consumeCondition_unresolved, record_unresolved,
        record_unresolved, hm, hi]
    have hr : (((m.record i).consumeCondition i).rememberCall i).unresolved =
        (((m'.record j).consumeCondition j).rememberCall j).unresolved := by
      rw [rememberCall_unresolved, rememberCall_unresolved, hc, hi]
    have htaken : (m.record i).takenLabel? i = some name := ht.trans hn
    rw [perform_eq, execute_taken htaken (hoperand hn), performByName_taken hn]
    cases lastMark? name is with
    | none =>
      show ((Effect.fault _ _).advance _ _).unresolved = ((Effect.fault _ _).advance _ _).unresolved
      rw [Effect.advance_unresolved, Effect.advance_unresolved, Effect.unresolved_fault,
        Effect.unresolved_fault, hc, hp, hx, Fault.unresolved, Fault.unresolved, hi]
    | some mark =>
      -- The transfer lands on the mark, and advancing the pointer moves it behind.
      exact congrArg (fun m => Effect.completed { m with pointer := (mark : Int) + 1 }) hr

theorem next_link (is : List Instruction) (m : Machine) :
    m.next (.link is) =
      match m.next (.ofList is) with
      | .instruction j => .instruction (j.resolve (labelTable is))
      | other => other := by
  have hsize : (Program.link is).size = (Program.ofList is).size := by
    rw [Program.size_link]
    rfl
  have hfetch : (Program.link is).fetch? m.pointer =
      ((Program.ofList is).fetch? m.pointer).map (Instruction.resolve (labelTable is)) := by
    unfold Program.fetch?
    rw [hsize, Program.at?_link]
  unfold next
  rw [hsize, hfetch]
  split
  · rfl
  · cases (Program.ofList is).fetch? m.pointer <;> rfl

/-- A step of the linked program has the effect of a step by name. -/
theorem step_link (his : ∀ j ∈ is, j.unresolved = j) (hm : m.unresolved = m'.unresolved) :
    (m.step (.link is)).unresolved = (m'.stepByName is).unresolved := by
  have hnext : m.next (.ofList is) = m'.next (.ofList is) :=
    congrArg (fun m => m.next (.ofList is)) hm
  unfold step stepByName
  rw [next_link, hnext]
  cases hn : m'.next (.ofList is) with
  | halted => exact congrArg Effect.completed hm
  | outside => exact congrArg (Effect.stopped · .outsideProgram) hm
  | instruction j =>
    have hj : j ∈ is := List.mem_toArray.mp (Program.mem_of_fetch? (next_eq_instruction hn).2.2)
    exact perform_link (his j hj) hm

theorem trace_link (his : ∀ j ∈ is, j.unresolved = j) (hm : m.unresolved = m'.unresolved)
    (n : Nat) :
    (trace (step (.link is)) n m).map Effect.unresolved =
      (trace (stepByName is) n m').map Effect.unresolved := by
  induction n generalizing m m' with
  | zero => rfl
  | succ n ih =>
    have hs := step_link his hm
    rw [trace, trace, List.map_cons, List.map_cons, hs, ih (congrArg Effect.machine hs)]

/-! ## Unresolved labels -/

theorem next_link_eq_instruction (h : m.next (.link is) = .instruction i) :
    ∃ j ∈ is, i = j.resolve (labelTable is) := by
  rw [next_link] at h
  cases hn : m.next (.ofList is) with
  | instruction j =>
    rw [hn] at h
    cases h
    exact ⟨j, List.mem_toArray.mp (Program.mem_of_fetch? (next_eq_instruction hn).2.2), rfl⟩
  | halted => simp [hn] at h
  | outside => simp [hn] at h

theorem operand_of_taken_link {name : String} (his : ∀ j ∈ is, j.unresolved = j)
    (hn : m.next (.link is) = .instruction i) (h : m.takenLabel? i = some name) :
    i.operand = some (.label name ((lastMark? name is).map Int.ofNat)) := by
  obtain ⟨j, hj, rfl⟩ := next_link_eq_instruction hn
  apply operand_of_taken is (his j hj) (m := m)
  rw [← takenLabel?_unresolved, ← j.unresolved_resolve (labelTable is), takenLabel?_unresolved, h]

/-- A step of the linked program reports an unresolved label exactly if it follows a label that no
mark defines. -/
theorem step_unresolvedLabel_iff (his : ∀ j ∈ is, j.unresolved = j)
    (device : ∀ error, m.console.Raises (.runtime error) →
      error.fault.name ≠ "UnresolvedLabelError") :
    (∃ error, (m.step (.link is)).stop = some (.fault error) ∧
      error.fault.name = "UnresolvedLabelError") ↔
    ∃ i name, m.next (.link is) = .instruction i ∧ m.takenLabel? i = some name ∧
      ∀ mark ∈ is, mark.definedLabel? ≠ some name := by
  constructor
  · rintro ⟨error, h, hname⟩
    obtain ⟨i, hn, ⟨raised, hr, hf⟩ | hf⟩ := step_fault h
    · rw [← hf] at hname
      exact absurd hname (device raised hr)
    · obtain ⟨name, ht, ho⟩ := hf.of_unresolvedLabel hname
      rw [operand_of_taken_link his hn ht] at ho
      refine ⟨i, name, hn, ht, lastMark?_eq_none_iff.mp ?_⟩
      simpa using ho
  · rintro ⟨i, name, hn, ht, hmarks⟩
    have ho := operand_of_taken_link his hn ht
    rw [lastMark?_eq_none_iff.mpr hmarks] at ho
    have htaken : (m.record i).takenLabel? i = some name := ht
    refine ⟨(RuntimeError.ofFault (.unresolvedLabel i)).atStep m.pointer m.executed, ?_, rfl⟩
    unfold step
    rw [hn]
    show (m.perform i).stop = _
    rw [perform_eq, execute_taken htaken ho]
    rfl

theorem condition?_operandKind? {c : Command} {condition : Int → Bool}
    (h : c.condition? = some condition) : c.family = .flow ∧ c.operandKind? = some .label := by
  cases c <;> cases h <;> exact ⟨rfl, rfl⟩

/-- A conditional jump whose condition fails completes, wherever its label leads. -/
theorem step_of_condition_fails {p : Program} (hw : p.WellFormed)
    (hn : m.next p = .instruction i) {condition : Int → Bool} {value : Int} {rest : List Int}
    (command : i.command.condition? = some condition) (stack : m.stack = value :: rest)
    (fails : condition value = false) : (m.step p).stop = none := by
  have hi := hw.consistent i (Program.mem_of_fetch? (next_eq_instruction hn).2.2)
  obtain ⟨hf, hk⟩ := condition?_operandKind? command
  obtain ⟨name, label⟩ :=
    Option.isSome_iff_exists.mp (Instruction.labelName?_isSome.mpr (hi.2.trans hk))
  have hstack : (m.record i).stack = value :: rest := stack
  rw [step_of_completed hn (.skip (hi.1.trans hf) command label hstack fails)]
  rfl

end

/-- Resolving labels is sound. The machine on the program of a text goes through the same effects as
the machine that follows labels by name, apart from targets; it reports an unresolved label exactly
if it follows a label that no mark defines; and a conditional jump whose condition fails completes.
-/
theorem resolution_sound {file text : String} {encoding : Encoding} {p : Program}
    (parsed : Program.parse file encoding text = .ok p) :
    ∃ is, decode file (Source.ofText encoding text).tokens = .ok is ∧
      (∀ n m, (trace (step p) n m).map Effect.unresolved =
        (trace (stepByName is) n m).map Effect.unresolved) ∧
      (∀ m : Machine, (∀ error, m.console.Raises (.runtime error) →
          error.fault.name ≠ "UnresolvedLabelError") →
        ((∃ error, (m.step p).stop = some (.fault error) ∧
            error.fault.name = "UnresolvedLabelError") ↔
          ∃ i name, m.next p = .instruction i ∧ m.takenLabel? i = some name ∧
            ∀ mark ∈ is, mark.definedLabel? ≠ some name)) ∧
      ∀ (m : Machine) (i : Instruction) condition value rest, m.next p = .instruction i →
        i.command.condition? = some condition → m.stack = value :: rest →
        condition value = false → (m.step p).stop = none := by
  obtain ⟨is, hd, rfl⟩ := Program.parse_ok_iff.mp parsed
  have his : ∀ j ∈ is, j.unresolved = j := fun j hj => (isEncodable_of_decode_ok hd j hj).unresolved
  refine ⟨is, hd, fun n m => trace_link his rfl n, ?_, ?_⟩
  · intro m device
    exact step_unresolvedLabel_iff his device
  · intro m i condition value rest hn command stack fails
    exact step_of_condition_fails (Program.wellFormed_of_parse parsed) hn command stack fails

/-- A jump, and two marks of its label: both machines continue behind the second mark. -/
theorem jumped_behind_last_mark :
    ∃ p is, Program.parse "marks.stl" .stl "LSLTLLSSTLLSSTLLLL" = .ok p ∧
      decode "marks.stl" (Source.ofText .stl "LSLTLLSSTLLSSTLLLL").tokens = .ok is ∧
      ((start 0 false (.ofText "")).step p).machine.pointer = 3 ∧
      (trace (step p) 2 (start 0 false (.ofText ""))).map Effect.unresolved =
        (trace (stepByName is) 2 (start 0 false (.ofText ""))).map Effect.unresolved := by
  have parsed : Program.parse "marks.stl" .stl "LSLTLLSSTLLSSTLLLL" = .ok (.ofList
      [⟨.flow, .jump, some (.label "1" (some 2)), some ⟨"marks.stl", 1, 1⟩⟩,
        ⟨.flow, .mark, some (.label "1" (some 2)), some ⟨"marks.stl", 1, 6⟩⟩,
        ⟨.flow, .mark, some (.label "1" (some 2)), some ⟨"marks.stl", 1, 11⟩⟩,
        ⟨.flow, .exit, none, some ⟨"marks.stl", 1, 16⟩⟩]) := rfl
  obtain ⟨is, decoded, same, -⟩ := resolution_sound parsed
  exact ⟨_, is, parsed, decoded, rfl, same 2 _⟩

end Machine

end Whitespace
