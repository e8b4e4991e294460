import Whitespace.Proofs.Machine.Course

/-!
# Calls and returns

A call that completes remembers its position, and a return that completes forgets the latest
position that is remembered and continues behind it. Nothing else touches the calls, so calls and
returns are nested like brackets, wherever the jumps between them lead and whichever steps fail.

Results:
1. `Step.nesting`: what a step does to the calls.
2. `Machine.Course.calls_suffix`: a call stays remembered, on top of the calls before it, as long as
   there are more calls than those.
3. `Machine.call_returns`: the first step after which there are not, returns from that call.
-/

namespace Whitespace

namespace Machine

variable {m : Machine} {i : Instruction}

/-- What executing an instruction does to the calls. -/
theorem execute_calls_cases (m : Machine) (i : Instruction) :
    (m.execute i).machine.calls = m.calls ∨
      (i.Is .call ∧ (m.execute i).stop = none ∧
        (m.execute i).machine.calls = m.pointer :: m.calls) ∨
      (i.Is .ret ∧ (m.execute i).stop = none ∧
        m.calls = (m.execute i).machine.pointer :: (m.execute i).machine.calls) := by
  have h := executes m i
  generalize m.execute i = e at h ⊢
  cases h with
  | call is => exact .inr (.inl ⟨is, rfl, rfl⟩)
  | ret is stack => exact .inr (.inr ⟨is, rfl, stack⟩)
  | outputCharacter | outputNumber => exact .inl (output_calls _ _)
  | _ => exact .inl rfl

/-- A call that completes remembers its position. -/
theorem execute_call (is : i.Is .call) (completes : (m.execute i).stop = none) :
    (m.execute i).machine.calls = m.pointer :: m.calls := by
  obtain ⟨command, family⟩ := is
  simp only [execute, family, Command.family, executeFlow, command] at completes ⊢
  split at completes
  · rfl
  · cases completes
  · cases completes

end Machine

namespace Step

/-- What a step does to the calls: it keeps them, or opens or closes a bracket. -/
inductive Nesting (s : Step) : Prop
  | keeps (calls : s.after.calls = s.before.calls)
  | opens (is : s.instruction.Is .call) (completes : s.stop = none)
      (calls : s.after.calls = s.before.pointer :: s.before.calls)
  | closes {caller : Int} (is : s.instruction.Is .ret) (completes : s.stop = none)
      (calls : s.before.calls = caller :: s.after.calls) (pointer : s.after.pointer = caller + 1)

theorem nesting (s : Step) : s.Nesting := by
  rcases Machine.execute_calls_cases (s.before.record s.instruction) s.instruction with
    calls | ⟨is, completes, calls⟩ | ⟨is, completes, calls⟩
  · exact .keeps calls
  · exact .opens is (s.stop_eq_none_iff.mpr completes) calls
  · exact .closes is (s.stop_eq_none_iff.mpr completes) calls rfl

theorem after_calls_of_call {s : Step} (is : s.instruction.Is .call) (completes : s.stop = none) :
    s.after.calls = s.before.pointer :: s.before.calls :=
  Machine.execute_call is (s.stop_eq_none_iff.mp completes)

/-- The step after which a call is not remembered any more, nor anything on top of it, returns from
that call. -/
theorem returns_of_length_le {s : Step} {caller : Int} {calls : List Int}
    (remembered : caller :: calls <:+ s.before.calls)
    (closed : s.after.calls.length ≤ calls.length) :
    s.instruction.Is .ret ∧ s.stop = none ∧ s.after.pointer = caller + 1 ∧
      s.after.calls = calls := by
  have depth := remembered.length_le
  rw [List.length_cons] at depth
  cases s.nesting with
  | keeps same =>
    rw [same] at closed
    omega
  | opens _ _ opened =>
    rw [opened, List.length_cons] at closed
    omega
  | closes is completes popped pointer =>
    rw [popped, List.suffix_cons_iff] at remembered
    rcases remembered with same | below
    · cases same
      exact ⟨is, completes, pointer, rfl⟩
    · have := below.length_le
      rw [List.length_cons] at this
      omega

end Step

namespace Machine

variable {p : Program} {m m' origin : Machine} {made earlier later : List Step} {call : Step}

/-- A call stays remembered, on top of the calls before it, as long as there are more calls than
those. -/
theorem Course.calls_suffix {caller : Int} {calls : List Int} (h : Course p m made m')
    (remembered : caller :: calls <:+ m.calls)
    (above : ∀ s ∈ made, calls.length < s.before.calls.length)
    (deep : calls.length < m'.calls.length) : caller :: calls <:+ m'.calls := by
  refine h.history (P := fun made m' => (∀ s ∈ made, calls.length < s.before.calls.length) →
    calls.length < m'.calls.length → caller :: calls <:+ m'.calls) (fun _ _ => remembered) ?_ above
    deep
  intro made s _ _ ih above deep
  obtain ⟨above, deepBefore⟩ := List.forall_mem_append.mp above
  have before := ih above (deepBefore s List.mem_cons_self)
  cases s.nesting with
  | keeps same => rwa [same]
  | opens _ _ opened =>
    rw [opened]
    exact before.trans (List.suffix_cons _ _)
  | closes _ _ popped _ =>
    -- Had the return popped the call itself, no more calls than those before it would be left.
    rw [popped, List.suffix_cons_iff] at before
    refine before.resolve_left fun same => ?_
    cases same
    exact Nat.lt_irrefl _ deep

/-- Calls and returns are nested. As long as there are more calls than before a call that completed,
that call is remembered at the bottom of them, on top of those before it. The first step after which
there are not is a return: it continues right behind the call, with the calls that there were before
it. -/
theorem call_returns (course : Course p origin (earlier ++ call :: later) m)
    (is : call.instruction.Is .call) (completes : call.stop = none)
    (above : ∀ s ∈ later, call.before.calls.length < s.before.calls.length) :
    (call.before.calls.length < m.calls.length →
      call.before.pointer :: call.before.calls <:+ m.calls) ∧
    (m.calls.length ≤ call.before.calls.length →
      ∃ between ret, later = between ++ [ret] ∧ ret.instruction.Is .ret ∧ ret.stop = none ∧
        m.pointer = call.before.pointer + 1 ∧ m.calls = call.before.calls) := by
  obtain ⟨-, -, rest⟩ := course_split_iff.mp course
  have opened := Step.after_calls_of_call is completes
  have remembered : call.before.pointer :: call.before.calls <:+ call.after.calls := by
    rw [opened]
  refine ⟨rest.calls_suffix remembered above, fun closed => ?_⟩
  rcases List.eq_nil_or_concat later with rfl | ⟨between, ret, rfl⟩
  · rw [course_nil_iff.mp rest, opened] at closed
    exact absurd closed (Nat.not_succ_le_self _)
  · rw [List.concat_eq_append] at rest above ⊢
    obtain ⟨first, -, rfl⟩ := course_concat_iff.mp rest
    obtain ⟨above, deep⟩ := List.forall_mem_append.mp above
    have before := first.calls_suffix remembered above (deep ret List.mem_cons_self)
    obtain ⟨isRet, done, pointer, same⟩ := Step.returns_of_length_le before closed
    exact ⟨between, ret, rfl, isRet, done, pointer, same⟩

def nestedCalls : Program :=
  .ofList
    [⟨.flow, .call, some (.label "0" (some 2)), some ⟨"nested.stl", 1, 1⟩⟩,
      ⟨.flow, .exit, none, some ⟨"nested.stl", 1, 6⟩⟩,
      ⟨.flow, .mark, some (.label "0" (some 2)), some ⟨"nested.stl", 1, 9⟩⟩,
      ⟨.flow, .call, some (.label "1" (some 5)), some ⟨"nested.stl", 1, 14⟩⟩,
      ⟨.flow, .ret, none, some ⟨"nested.stl", 1, 19⟩⟩,
      ⟨.flow, .mark, some (.label "1" (some 5)), some ⟨"nested.stl", 1, 22⟩⟩,
      ⟨.flow, .ret, none, some ⟨"nested.stl", 1, 27⟩⟩]

/-- The return from the inner subroutine keeps the outer call. The one after it returns behind that,
to the exit. -/
theorem nested_call_returns :
    Program.parse "nested.stl" .stl "LSTSLLLLLSSSLLSTTLLTLLSSTLLTL" = .ok nestedCalls ∧
      ∃ call inner back outer,
        Course nestedCalls (start 0 false (.ofText "")) ([] ++ call :: [inner, back, outer])
          outer.after ∧
        back.instruction.Is .ret ∧ back.after.calls = [call.before.pointer] ∧
        outer.instruction.Is .ret ∧ outer.after.pointer = 1 ∧ outer.after.calls = [] := by
  have course : Course nestedCalls (start 0 false (.ofText "")) ([] ++ _ :: [_, _, _]) _ :=
    .cons rfl (.cons rfl (.cons rfl (.cons rfl .nil)))
  have returns := (call_returns course ⟨rfl, rfl⟩ rfl (by decide)).2 (Nat.le_refl 0)
  obtain ⟨between, ret, same, is, -, pointer, calls⟩ := returns
  have same : [_, _] ++ [_] = between ++ [ret] := same
  cases (List.append_inj' same rfl).2
  exact ⟨rfl, _, _, _, _, course, ⟨rfl, rfl⟩, rfl, is, pointer, calls⟩

end Machine

end Whitespace
