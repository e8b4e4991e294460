import Whitespace.Proofs.Machine.Faults

/-!
# How a step ends

A step completes, or it stops with a runtime error, or it divides by zero. Two things else could
stop it: an input device may raise an error of a kind that is not its own, and a line that is a
number may have more digits than are converted. The first is up to the device, the second is not.

Results:
1. `Machine.execute_stop`: whatever stops an instruction, one case a kind of stop.
2. `Machine.step_stop`, `Machine.step_digitLimit`: the same for a step.
3. `Machine.step_in_taxonomy_iff`: a step of a decoded program completes, faults or divides by zero,
   exactly unless it reads an overlong line; `Machine.overlong_line_escapes` is such a step.
-/

namespace Whitespace

/-! ## Lines of digits -/

/-- The line, trimmed, is a number of so many digits, more than are converted. -/
def Decimal.IsOverlong (line : String) (digits : Nat) : Prop :=
  digitLimit < digits ∧ ∃ numeral, Numeral.ofChars? (Text.trim line.toList) = some numeral ∧
    numeral.digits.length = digits

theorem Text.isBlank_of_isDigit {c : Char} (h : c.isDigit = true) : isBlank c = false := by
  rw [Bool.eq_false_iff]
  intro hb
  have hn : 48 ≤ c.toNat ∧ c.toNat ≤ 57 := by
    simp only [Char.isDigit, Bool.and_eq_true, decide_eq_true_eq] at h
    exact h
  simp only [isBlank, Bool.or_eq_true, Bool.and_eq_true, decide_eq_true_eq, beq_iff_eq] at hb
  omega

theorem Text.trim_of_not_blank {cs : List Char} (h : ∀ c ∈ cs, isBlank c = false) :
    trim cs = cs := by
  have hdrop {cs : List Char} (h : ∀ c ∈ cs, isBlank c = false) : cs.dropWhile isBlank = cs := by
    cases cs with
    | nil => rfl
    | cons c cs => rw [List.dropWhile_cons_of_neg (by simp [h c List.mem_cons_self])]
  rw [trim, hdrop h, hdrop fun c hc => h c (List.mem_reverse.mp hc), List.reverse_reverse]

theorem Decimal.Numeral.ofChars?_of_isDigit {cs : List Char} (hne : cs ≠ [])
    (h : ∀ c ∈ cs, c.isDigit = true) : ofChars? cs = some ⟨false, cs⟩ := by
  have hall : cs ≠ [] ∧ cs.all Char.isDigit = true := ⟨hne, List.all_eq_true.mpr h⟩
  unfold ofChars?
  split
  · exact absurd (h '+' List.mem_cons_self) (by decide)
  · exact absurd (h '-' List.mem_cons_self) (by decide)
  · rw [ofDigits?, if_pos hall]

theorem Decimal.isOverlong_ofList {cs : List Char} (h : ∀ c ∈ cs, c.isDigit = true)
    (hlong : digitLimit < cs.length) : IsOverlong (String.ofList cs) cs.length := by
  have hne : cs ≠ [] := List.ne_nil_of_length_pos (Nat.zero_lt_of_lt hlong)
  refine ⟨hlong, ⟨false, cs⟩, ?_, rfl⟩
  rw [String.toList_ofList, Text.trim_of_not_blank fun c hc => Text.isBlank_of_isDigit (h c hc)]
  exact Numeral.ofChars?_of_isDigit hne h

namespace Machine

variable {Notes : Type} {m : Machine} {i : Instruction} {p : Program}

theorem readWord_digitLimit_iff {line : String} {digits : Nat} :
    readWord i line = .error (.digitLimit digits) ↔ Decimal.IsOverlong line digits := by
  unfold Decimal.IsOverlong
  cases hn : Decimal.Numeral.ofChars? (Text.trim line.toList) with
  | none =>
    obtain ⟨problem, hp⟩ := readWord_of_none hn
    rw [hp]
    constructor
    · intro h
      cases h
    · rintro ⟨-, numeral, h, -⟩
      cases h
  | some numeral =>
    rw [readWord_of_numeral hn]
    constructor
    · intro h
      split at h
      · next hd =>
        cases h
        exact ⟨hd, numeral, rfl, rfl⟩
      · split at h <;> cases h
    · rintro ⟨hd, other, h, rfl⟩
      cases h
      rw [if_pos hd]

/-! ## What stops an instruction -/

/-- The instruction divides by zero: its right operand, on top of the stack, is zero. -/
def DividesByZero (m : Machine) (i : Instruction) : Prop :=
  i.family = .arithmetic ∧ (i.command = .divide ∨ i.command = .modulo) ∧
    ∃ left rest, m.stack = 0 :: left :: rest

/-- The instruction reads a line that is a number of so many digits, more than are converted. -/
def ReadsOverlong (m : Machine) (i : Instruction) (digits : Nat) : Prop :=
  i.Is .readNumber ∧ ∃ address rest cell line console, m.stack = address :: rest ∧
    m.heap.address? address = some cell ∧ m.console.readLine = (.ok line, console) ∧
    Decimal.IsOverlong line digits

/-- `StopsWith m i stop`: on the machine `m` the instruction `i` may be stopped by `stop`. -/
inductive StopsWith (m : Machine) (i : Instruction) : Stop → Prop
  | fault (error : RuntimeError) : StopsWith m i (.fault error)
  | divisionByZero (divides : m.DividesByZero i) : StopsWith m i (.divisionByZero i)
  | digitLimit {digits : Nat} (overlong : m.ReadsOverlong i digits) :
      StopsWith m i (.digitLimit digits)
  | foreign {notice : Notice} (raises : m.console.Raises (.foreign notice)) :
      StopsWith m i (.foreign notice)
  | interrupt {notice : Notice} (raises : m.console.Raises (.interrupt notice)) :
      StopsWith m i (.foreign notice)

theorem readsOverlong_of_refused {read : Console → Except Raised String × Console}
    {word : Instruction → String → Except Stop Int} {address : Int} {rest : List Int} {cell : Nat}
    {text : String} {console : Console} {digits : Nat} (family : i.family = .io)
    (command : i.command.reader? = some (read, word)) (stack : m.stack = address :: rest)
    (inside : m.heap.address? address = some cell) (result : read m.console = (.ok text, console))
    (refused : word i text = .error (.digitLimit digits)) : m.ReadsOverlong i digits := by
  cases hc : i.command <;> rw [hc] at command <;> cases command
  · rcases readCode_cases text with ⟨value, -, hv⟩ | ⟨problem, hp⟩
    · rw [hv] at refused
      cases refused
    · rw [hp] at refused
      cases refused
  · refine ⟨⟨hc, family⟩, address, rest, cell, text, console, stack, inside, result, ?_⟩
    exact readWord_digitLimit_iff.mp refused

/-- Whatever stops an instruction is a fault, a division by zero, an overlong line, or was raised
by the input device. -/
theorem execute_stop {stop : Stop} (h : (m.execute i).stop = some stop) : m.StopsWith i stop := by
  have he := executes m i
  generalize m.execute i = e at he h
  cases he with
  | divisionByZero family command stack division =>
    cases h
    exact .divisionByZero ⟨family, division, _, _, stack⟩
  | @readFailed _ _ _ _ _ raised _ family command stack inside result =>
    cases raised with
    | foreign notice =>
      cases h
      exact .foreign (reader?_raises command result (.inl rfl))
    | interrupt notice =>
      cases h
      exact .interrupt (reader?_raises command result (.inl rfl))
    | device notice | runtime error =>
      cases h
      exact .fault _
  | readRefused family command stack inside result refused =>
    cases h
    rcases reader?_refused command refused with ⟨problem, rfl⟩ | ⟨digits, rfl⟩
    · exact .fault _
    · exact .digitLimit (readsOverlong_of_refused family command stack inside result refused)
  | inconsistent | underflow | copyOutside | slideNegative | storeOutside | retrieveOutside
  | unresolved | unresolvedIf | retUnderflow | outputOutside | outputSurrogate | readOutside =>
    cases h
    exact .fault _
  | _ => cases h

theorem execute_of_readsOverlong {digits : Nat} (h : m.ReadsOverlong i digits) :
    (m.execute i).stop = some (.digitLimit digits) := by
  obtain ⟨⟨hc, family⟩, address, rest, cell, line, console, stack, inside, result, overlong⟩ := h
  have command : i.command.reader? = some (Console.readLine, readWord) := by rw [hc]; rfl
  have refused : readWord i line = .error (.digitLimit digits) :=
    readWord_digitLimit_iff.mpr overlong
  rw [(Executes.readRefused family command stack inside result refused).eq]
  rfl

/-! ## What stops a step -/

/-- What stops a step inside of the program stops the instruction that is next. -/
theorem step_stop {stop : Stop} (inside : m.next p ≠ .outside)
    (h : (m.step p).stop = some stop) : ∃ i, m.next p = .instruction i ∧ m.StopsWith i stop := by
  rcases step_stop_cases h with ⟨ho, -⟩ | ⟨i, cause, hn, hs, rfl⟩
  · exact absurd ho inside
  · refine ⟨i, hn, ?_⟩
    -- Recording the step changes nothing that stops an instruction.
    cases execute_stop hs with
    | fault error => exact .fault _
    | divisionByZero divides => exact .divisionByZero divides
    | digitLimit overlong => exact .digitLimit overlong
    | foreign raises => exact .foreign raises
    | interrupt raises => exact .interrupt raises

theorem step_digitLimit {digits : Nat} (hn : m.next p = .instruction i)
    (h : m.ReadsOverlong i digits) : (m.step p).stop = some (.digitLimit digits) := by
  have hs : ((m.record i).execute i).stop = some (.digitLimit digits) :=
    execute_of_readsOverlong h
  rw [step_eq_perform hn]
  exact perform_stop_eq_some_iff.mpr ⟨_, hs, rfl⟩

/-- The step neither completes nor faults nor divides by zero if it reads an overlong line. -/
theorem step_escapes {digits : Nat} (hn : m.next p = .instruction i)
    (h : m.ReadsOverlong i digits) :
    ¬((m.step p).stop = none ∨ (∃ error, (m.step p).stop = some (.fault error)) ∨
      ∃ j, (m.step p).stop = some (.divisionByZero j)) := by
  rw [step_digitLimit hn h]
  rintro (h | ⟨error, h⟩ | ⟨j, h⟩) <;> cases h

/-- A step of a decoded program, the input device of which raises no errors but its own, completes,
faults or divides by zero, exactly unless it reads a number of more digits than are converted. It
divides by zero only where a division finds a zero on top of the stack. -/
theorem step_in_taxonomy_iff {file text : String} {encoding : Encoding}
    (parsed : Program.parse file encoding text = .ok p) (r : Registry Notes) (heapSize : Nat)
    (silent : Bool) (console : Console)
    (device : ∀ raised, console.Raises raised → ∃ notice, raised = .device notice)
    (reachable : Reachable r p (start heapSize silent console) m) :
    (((m.step p).stop = none ∨ (∃ error, (m.step p).stop = some (.fault error)) ∨
        ∃ i, (m.step p).stop = some (.divisionByZero i)) ↔
      ¬∃ i digits, m.next p = .instruction i ∧ m.ReadsOverlong i digits) ∧
    ∀ i, (m.step p).stop = some (.divisionByZero i) →
      m.next p = .instruction i ∧ m.DividesByZero i := by
  have hb := reachable.inBounds (Program.wellFormed_of_parse parsed)
  have inside : m.next p ≠ .outside := by
    intro ho
    obtain ⟨-, i, -, hn⟩ := hb.next (by rw [ho]; nofun)
    rw [ho] at hn
    cases hn
  refine ⟨⟨?_, ?_⟩, ?_⟩
  · rintro h ⟨i, digits, hn, overlong⟩
    exact step_escapes hn overlong h
  · intro hno
    cases hs : (m.step p).stop with
    | none => exact .inl rfl
    | some stop =>
      obtain ⟨i, hn, stops⟩ := step_stop inside hs
      cases stops with
      | fault error => exact .inr (.inl ⟨error, rfl⟩)
      | divisionByZero divides => exact .inr (.inr ⟨i, rfl⟩)
      | digitLimit overlong => exact absurd ⟨i, _, hn, overlong⟩ hno
      | foreign raises | interrupt raises =>
        obtain ⟨notice, h⟩ := device _ (reachable.raises raises)
        cases h
  · intro i hs
    obtain ⟨j, hn, stops⟩ := step_stop inside hs
    cases stops with
    | divisionByZero divides => exact ⟨hn, divides⟩

/-- A division by zero ends in the taxonomy, also on a device that is going to fail. -/
theorem divided_by_zero :
    ∃ p m, Program.parse "divide.stl" .stl "SSSTLSSSLTSTS" = .ok p ∧
      Reachable (.empty : Registry Unit) p
        (start 0 false ⟨.scripted [.error (.device ⟨"OSError", "closed"⟩)] [], ""⟩) m ∧
      ∃ i, (m.step p).stop = some (.divisionByZero i) ∧ m.DividesByZero i ∧
        ¬∃ i digits, m.next p = .instruction i ∧ m.ReadsOverlong i digits := by
  have parsed : Program.parse "divide.stl" .stl "SSSTLSSSLTSTS" = .ok (.ofList
      [⟨.stack, .push, some (.number 1), some ⟨"divide.stl", 1, 1⟩⟩,
        ⟨.stack, .push, some (.number 0), some ⟨"divide.stl", 1, 6⟩⟩,
        ⟨.arithmetic, .divide, none, some ⟨"divide.stl", 1, 10⟩⟩]) := rfl
  have device : ∀ raised,
      (⟨.scripted [.error (.device ⟨"OSError", "closed"⟩)] [], ""⟩ : Console).Raises raised →
        ∃ notice, raised = .device notice := by
    rintro raised (h | h)
    · obtain ⟨rfl⟩ : raised = .device ⟨"OSError", "closed"⟩ := by simpa using h
      exact ⟨_, rfl⟩
    · cases h
  have ends := step_in_taxonomy_iff parsed (.empty : Registry Unit) 0 false _ device
    (.step (.step .origin ⟨#[], ()⟩) ⟨#[], ()⟩)
  exact ⟨_, _, parsed, .step (.step .origin ⟨#[], ()⟩) ⟨#[], ()⟩, _, rfl, (ends.2 _ rfl).2,
    ends.1.mp (.inr (.inr ⟨_, rfl⟩))⟩

/-- A number line of 4301 digits that denotes five is neither stored nor refused by a runtime
error. -/
theorem overlong_line_escapes :
    ∃ p m, Program.parse "read.stl" .stl "SSSLTLTT" = .ok p ∧
      Reachable (.empty : Registry Unit) p (start 1 false
        ⟨.scripted [.ok (String.ofList (List.replicate 4300 '0' ++ ['5']))] [], ""⟩) m ∧
      ¬((m.step p).stop = none ∨ (∃ error, (m.step p).stop = some (.fault error)) ∨
        ∃ i, (m.step p).stop = some (.divisionByZero i)) := by
  have parsed : Program.parse "read.stl" .stl "SSSLTLTT" = .ok (.ofList
      [⟨.stack, .push, some (.number 0), some ⟨"read.stl", 1, 1⟩⟩,
        ⟨.io, .readNumber, none, some ⟨"read.stl", 1, 5⟩⟩]) := rfl
  have overlong : Decimal.IsOverlong (String.ofList (List.replicate 4300 '0' ++ ['5'])) 4301 := by
    have hlen : (List.replicate 4300 '0' ++ ['5']).length = 4301 := by
      rw [List.length_append, List.length_replicate, List.length_singleton]
    rw [← hlen]
    refine Decimal.isOverlong_ofList ?_ (by rw [hlen]; decide)
    intro c hc
    rcases List.mem_append.mp hc with hc | hc
    · rw [List.eq_of_mem_replicate hc]
      decide
    · rw [List.mem_singleton.mp hc]
      decide
  refine ⟨_, _, parsed, .step .origin ⟨#[], ()⟩, ?_⟩
  exact step_escapes rfl ⟨⟨rfl, rfl⟩, 0, [], 0, _, _, rfl, rfl, rfl, overlong⟩

end Machine

end Whitespace
