import Whitespace.Proofs.Machine.Rules
import Whitespace.Proofs.Program.Linking

/-!
# Following labels

A machine follows a label when it executes a call, a jump, or a conditional jump whose condition
holds. Whether it does depends on nothing but the instruction and the top of the stack; where that
leads depends on the target of the label alone.

Results:
1. `Machine.takenLabel?_eq_some_iff`: when a label is followed.
2. `Machine.execute_taken`: what following a label leads to.
-/

namespace Whitespace.Machine

/-- The condition of a command holds on the top of the stack. -/
def holds (m : Machine) (c : Command) : Bool :=
  match c.condition?, m.stack with
  | some condition, value :: _ => condition value
  | _, _ => false

/-- The label that the machine follows on an instruction: that of a call, of a jump, or of a
conditional jump whose condition holds. -/
def takenLabel? (m : Machine) (i : Instruction) : Option String :=
  if i.family = .flow ∧ (i.command = .call ∨ i.command = .jump ∨ m.holds i.command = true) then
    i.labelName?
  else none

def consumeCondition (m : Machine) (i : Instruction) : Machine :=
  if i.command.condition?.isSome then { m with stack := m.stack.tail } else m

def rememberCall (m : Machine) (i : Instruction) : Machine :=
  if i.command = .call then { m with calls := m.pointer :: m.calls } else m

section

variable {m : Machine} {i : Instruction}

theorem holds_iff {c : Command} :
    m.holds c = true ↔ ∃ condition value rest,
      c.condition? = some condition ∧ m.stack = value :: rest ∧ condition value = true := by
  unfold holds
  cases c.condition? <;> cases m.stack <;> simp

theorem takenLabel?_eq_some_iff {name : String} :
    m.takenLabel? i = some name ↔
      i.labelName? = some name ∧
        (i.Is .call ∨ i.Is .jump ∨ i.family = .flow ∧ m.holds i.command = true) := by
  unfold takenLabel?
  split
  · next hc =>
    refine ⟨fun hl => ⟨hl, ?_⟩, And.left⟩
    obtain ⟨hf, hc | hc | hh⟩ := hc
    · exact .inl ⟨hc, hf⟩
    · exact .inr (.inl ⟨hc, hf⟩)
    · exact .inr (.inr ⟨hf, hh⟩)
  · next hc =>
    constructor
    · intro h
      cases h
    · rintro ⟨-, ⟨h, hf⟩ | ⟨h, hf⟩ | ⟨hf, hh⟩⟩
      · exact absurd ⟨hf, .inl h⟩ hc
      · exact absurd ⟨hf, .inr (.inl h)⟩ hc
      · exact absurd ⟨hf, .inr (.inr hh)⟩ hc

theorem takenLabel?_of_transfer {name : String} {target : Option Int}
    (is : i.Is .call ∨ i.Is .jump) (operand : i.operand = some (.label name target)) :
    m.takenLabel? i = some name := by
  have label := Instruction.labelName?_eq_some_iff.mpr ⟨target, operand⟩
  refine takenLabel?_eq_some_iff.mpr ⟨label, ?_⟩
  rcases is with is | is
  · exact .inl is
  · exact .inr (.inl is)

theorem takenLabel?_of_condition {condition : Int → Bool} {name : String} {target : Option Int}
    {value : Int} {rest : List Int} (family : i.family = .flow)
    (command : i.command.condition? = some condition)
    (operand : i.operand = some (.label name target)) (stack : m.stack = value :: rest)
    (holds : condition value = true) : m.takenLabel? i = some name := by
  have label := Instruction.labelName?_eq_some_iff.mpr ⟨target, operand⟩
  have hh := holds_iff.mpr ⟨condition, value, rest, command, stack, holds⟩
  exact takenLabel?_eq_some_iff.mpr ⟨label, .inr (.inr ⟨family, hh⟩)⟩

/-- What following a label leads to. -/
theorem execute_taken {name : String} {target : Option Int} (h : m.takenLabel? i = some name)
    (operand : i.operand = some (.label name target)) :
    m.execute i =
      target.elim (.fault (m.consumeCondition i) (.unresolvedLabel i)) fun target =>
        .completed { (m.consumeCondition i).rememberCall i with pointer := target } := by
  obtain ⟨-, is | is | ⟨family, holds⟩⟩ := takenLabel?_eq_some_iff.mp h
  · have hc : m.consumeCondition i = m := by simp [consumeCondition, is.1, Command.condition?]
    rw [hc, rememberCall, if_pos is.1]
    cases target with
    | some target => exact (Executes.call is operand).eq
    | none => exact (Executes.unresolved (.inl is) operand).eq
  · have hc : m.consumeCondition i = m := by simp [consumeCondition, is.1, Command.condition?]
    rw [hc, rememberCall, if_neg (by rw [is.1]; decide)]
    cases target with
    | some target => exact (Executes.jump is operand).eq
    | none => exact (Executes.unresolved (.inr is) operand).eq
  · obtain ⟨condition, value, rest, command, stack, holds⟩ := holds_iff.mp holds
    have hn : i.command ≠ .call := by
      intro hc
      rw [hc] at command
      cases command
    have hc : m.consumeCondition i = { m with stack := rest } := by
      simp [consumeCondition, command, stack]
    rw [hc, rememberCall, if_neg hn]
    cases target with
    | some target => exact (Executes.jumpIf family command operand stack holds).eq
    | none => exact (Executes.unresolvedIf family command operand stack holds).eq

end

end Whitespace.Machine
