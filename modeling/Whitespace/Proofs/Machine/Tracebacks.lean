import Whitespace.Proofs.Machine.Calls
import Whitespace.Proofs.Machine.StepLog
import Whitespace.Proofs.Machine.Termination
import Whitespace.Proofs.Program.Locations
import Whitespace.Traceback

/-!
# Reports and active calls

The report on a runtime error is made after the run has ended, from the calls that the machine still
remembers. A step that fails leaves them as they were, so these are the calls that were active when
the program stopped. On the program of a text each of them stands at a call instruction, and so has
a label and a place in the source, and every frame but the outermost is named for the label that
leads to it.

Results:
1. `Step.calls_of_stops`: a step that does not complete keeps the calls.
2. `Machine.InBounds.exists_call`: what stands in a program at an active call.
3. `Traceback.frames_mirror`: the frames of any machine whose calls stand at call instructions.
4. `Machine.frames_mirror_calls`: the report on the error of a run.
-/

namespace Whitespace

/-- What a report shows of a frame in the program of a text, as text and as JSON: where it stands in
the program, the instruction there, and the place of that in its source. -/
structure Frame.Shows (f : Frame) (index : Nat) (position : Int) (i : Instruction)
    (location : Location) : Prop where
  pointer : f.pointer = some position
  instruction : f.instruction = some i
  lines : f.lines =
    ["  File \"" ++ location.file ++ "\", line " ++ Decimal.ofInt location.position.line ++
      ", column " ++ Decimal.ofInt location.position.column ++ ", " ++
      ("instruction " ++ Decimal.ofInt position ++ ", in " ++ f.name), "    " ++ i.text]
  json : f.json index = .record [
    ("frame_index", .number index),
    ("name", .text f.name),
    ("instruction_pointer", .number position),
    ("instruction", .text i.text),
    ("source_location", .record [
      ("file", .text location.file),
      ("line", .number location.position.line),
      ("column", .number location.position.column)])]

namespace Traceback

/-- The frames of an error, on a program of a text, with these active calls, outermost first.

* `call`: the frame of a call shows the call instruction, which stands behind a part of the text,
  and the frame after it is named for the label that is called.
* `named`: no frame is named for a label that is not known.
* `innermost`: the last frame shows what the error names, and where that has its place. -/
structure Mirrors (file text : String) (p : Program) (calls : List Int) (error : RuntimeError)
    (frames : List Frame) : Prop where
  length : frames.length = calls.length + 1
  outermost : frames.head?.map Frame.name = some "<top-level>"
  call : ∀ k position, calls[k]? = some position →
    ∃ i label target before frame next, p.at? position = some i ∧ i.Is .call ∧
      i.operand = some (.label label target) ∧ (∀ c ∈ label.toList, c = '0' ∨ c = '1') ∧
      before <+: text.toList ∧ frames[k]? = some frame ∧
      frame.Shows k position i ⟨file, .behind before⟩ ∧
      frames[k + 1]? = some next ∧ next.name = "label '" ++ label ++ "'"
  named : ∀ frame ∈ frames, frame.name ≠ "label '?'"
  innermost : ∃ frame, frames.getLast? = some frame ∧ frame.pointer = error.pointer ∧
    frame.instruction = error.fault.instruction? ∧
    ∀ position i location, error.pointer = some position → error.fault.instruction? = some i →
      i.location = some location → frame.Shows calls.length position i location

end Traceback

/-! ## Steps that do not complete -/

theorem Step.calls_of_stops {s : Step} (stops : s.stop ≠ none) :
    s.after.calls = s.before.calls := by
  cases s.nesting with
  | keeps calls => exact calls
  | opens _ completes | closes _ completes => exact absurd completes stops

/-! ## Calls of a program -/

section

variable {file text : String} {e : Encoding} {p : Program} {i : Instruction}

theorem Instruction.Is.exists_label (is : i.Is .call) (h : i.IsConsistent) :
    ∃ label, i.labelName? = some label := by
  have kind : i.operand.map Operand.kind = some .label := h.2.trans (by rw [is.1]; rfl)
  exact Option.isSome_iff_exists.mp (labelName?_isSome.mpr kind)

/-- An active call is a call instruction with a label and a place in the source. -/
theorem Machine.InBounds.exists_call {heapSize : Nat} {m : Machine}
    (inBounds : m.InBounds p heapSize) (parsed : Program.parse file e text = .ok p)
    {position : Int} (active : position ∈ m.calls) :
    ∃ i label target before, p.at? position = some i ∧ i.Is .call ∧
      i.operand = some (.label label target) ∧ (∀ c ∈ label.toList, c = '0' ∨ c = '1') ∧
      before <+: text.toList ∧ i.location = some ⟨file, .behind before⟩ := by
  obtain ⟨i, here, is⟩ := inBounds.calls position active
  obtain ⟨-, -, member⟩ := Program.at?_eq_some here
  have consistent := (Program.wellFormed_of_parse parsed).consistent i member
  obtain ⟨label, named⟩ := is.exists_label consistent
  obtain ⟨target, operand⟩ := Instruction.labelName?_eq_some_iff.mp named
  have digits := Program.digits_of_label parsed member named
  obtain ⟨before, start, located⟩ := Program.exists_location parsed member
  exact ⟨i, label, target, before, here, is, operand, digits, start, located⟩

end

/-! ## Frames -/

theorem Frame.shows {i : Instruction} {location : Location} (located : i.location = some location)
    (name : String) (index : Nat) (position : Int) :
    Frame.Shows ⟨name, some position, some i⟩ index position i location where
  pointer := rfl
  instruction := rfl
  lines := by simp [Frame.lines, located, place]
  json := by simp [Frame.json, located]

namespace Traceback

variable {p : Program} {m : Machine} {error : RuntimeError} {name : String} {calls : List Int}

/-- The frames of these calls and of the error, from a frame with a given name inwards. -/
def framesFrom (p : Program) (error : RuntimeError) : String → List Int → List Frame
  | name, [] => [⟨name, error.pointer, error.fault.instruction?⟩]
  | name, position :: calls =>
    ⟨name, some position, p.at? position⟩ :: framesFrom p error (callName (p.at? position)) calls

theorem frames_eq (p : Program) (m : Machine) (error : RuntimeError) :
    frames p m error = framesFrom p error "<top-level>" m.calls.reverse := by
  unfold frames
  generalize m.calls.reverse = calls
  generalize "<top-level>" = name
  induction calls generalizing name with
  | nil => rfl
  | cons position calls ih => exact congrArg (_ :: ·) (ih _)

theorem length_framesFrom (p : Program) (error : RuntimeError) (name : String) (calls : List Int) :
    (framesFrom p error name calls).length = calls.length + 1 := by
  induction calls generalizing name with
  | nil => rfl
  | cons position calls ih => exact congrArg (· + 1) (ih _)

theorem framesFrom_head? (p : Program) (error : RuntimeError) (name : String) (calls : List Int) :
    (framesFrom p error name calls).head?.map Frame.name = some name := by
  cases calls <;> rfl

theorem framesFrom_getLast? (p : Program) (error : RuntimeError) (name : String)
    (calls : List Int) : ∃ last, (framesFrom p error name calls).getLast? =
      some ⟨last, error.pointer, error.fault.instruction?⟩ := by
  induction calls generalizing name with
  | nil => exact ⟨name, rfl⟩
  | cons position calls ih =>
    obtain ⟨last, h⟩ := ih (callName (p.at? position))
    exact ⟨last, by rw [framesFrom, List.getLast?_cons, h, Option.getD_some]⟩

/-- The frame of a call shows what stands at its position, and the frame after it is named for
that. -/
theorem framesFrom_getElem? (p : Program) (error : RuntimeError) (name : String) {k : Nat}
    {position : Int} (active : calls[k]? = some position) :
    ∃ outer next, (framesFrom p error name calls)[k]? =
        some ⟨outer, some position, p.at? position⟩ ∧
      (framesFrom p error name calls)[k + 1]? = some next ∧
      next.name = callName (p.at? position) := by
  induction calls generalizing name k with
  | nil => cases active
  | cons first calls ih =>
    rw [framesFrom, List.getElem?_cons_succ]
    cases k with
    | zero =>
      cases active
      have named := framesFrom_head? p error (callName (p.at? position)) calls
      rw [List.head?_eq_getElem?] at named
      obtain ⟨next, here, named⟩ := Option.map_eq_some_iff.mp named
      exact ⟨name, next, rfl, here, named⟩
    | succ k =>
      rw [List.getElem?_cons_succ]
      exact ih _ active

theorem name_of_mem_framesFrom {frame : Frame} (h : frame ∈ framesFrom p error name calls) :
    frame.name = name ∨ ∃ position ∈ calls, frame.name = callName (p.at? position) := by
  induction calls generalizing name with
  | nil =>
    rw [framesFrom, List.mem_singleton] at h
    exact .inl (congrArg Frame.name h)
  | cons position calls ih =>
    rcases List.mem_cons.mp h with rfl | h
    · exact .inl rfl
    · refine .inr ?_
      rcases ih h with named | ⟨inner, member, named⟩
      · exact ⟨position, List.mem_cons_self, named⟩
      · exact ⟨inner, List.mem_cons_of_mem _ member, named⟩

theorem callName_of_label {i : Instruction} {label : String} {target : Option Int}
    (operand : i.operand = some (.label label target)) :
    callName (some i) = "label '" ++ label ++ "'" := by
  simp [callName, Instruction.labelName?, operand]

/-- No label of a text is shown as one that is not known. -/
theorem label_ne_unknown {label : String} (digits : ∀ c ∈ label.toList, c = '0' ∨ c = '1') :
    "label '" ++ label ++ "'" ≠ "label '?'" := by
  intro same
  have same : "label '" ++ label ++ "'" = "label '" ++ "?" ++ "'" := same
  rw [String.append_left_inj, String.append_right_inj] at same
  subst same
  exact absurd (digits '?' (by simp)) (by decide)

/-- The frames of a machine whose calls stand at call instructions of a text. -/
theorem frames_mirror {file text : String} {e : Encoding} {heapSize : Nat}
    (parsed : Program.parse file e text = .ok p) (inBounds : m.InBounds p heapSize)
    (error : RuntimeError) :
    Mirrors file text p m.calls.reverse error (frames p m error) := by
  rw [frames_eq]
  refine ⟨length_framesFrom .., framesFrom_head? .., ?_, ?_, ?_⟩
  · intro k position active
    obtain ⟨i, label, target, before, here, is, operand, digits, start, located⟩ :=
      inBounds.exists_call parsed (List.mem_reverse.mp (List.mem_of_getElem? active))
    obtain ⟨outer, next, frame, after, named⟩ := framesFrom_getElem? p error "<top-level>" active
    rw [here] at frame named
    exact ⟨i, label, target, before, _, next, here, is, operand, digits, start, frame,
      Frame.shows located outer k position, after, named.trans (callName_of_label operand)⟩
  · intro frame member
    rcases name_of_mem_framesFrom member with named | ⟨position, active, named⟩
    · rw [named]
      decide
    · obtain ⟨i, label, target, before, here, -, operand, digits, -⟩ :=
        inBounds.exists_call parsed (List.mem_reverse.mp active)
      rw [named, here, callName_of_label operand]
      exact label_ne_unknown digits
  · obtain ⟨name, last⟩ := framesFrom_getLast? p error "<top-level>" m.calls.reverse
    refine ⟨_, last, rfl, rfl, ?_⟩
    intro position i location pointer instruction located
    rw [pointer, instruction]
    exact Frame.shows located name _ position

end Traceback

namespace Machine

/-- A run whose last step does not complete stops there. -/
theorem RunsTo.stops_at_last {p : Program} {m m' : Machine} {before : List Step} {last : Step}
    {stop : Option Stop} (h : RunsTo p m (before ++ [last]) m' stop) (fails : last.stop ≠ none) :
    m' = last.after ∧ last.stop = stop := by
  refine ⟨(course_concat_iff.mp h.course).2.2, ?_⟩
  generalize made_eq : before ++ [last] = made at h
  have incomplete : ¬∀ s ∈ made, s.stop = none := by
    intro complete
    exact fails (complete last (made_eq ▸ List.mem_append_right _ List.mem_cons_self))
  cases h with
  | exited _ complete | unterminated _ complete | outside _ complete =>
    exact absurd complete incomplete
  | stopped _ _ stops =>
    obtain ⟨-, same⟩ := List.append_inj' made_eq rfl
    cases same
    exact stops

/-- The report on the error of an unobserved run of a machine on the program of a text, whatever was
done with the machine before. The calls are still those that were active before the step that
failed, and the error names that step unless the input device raised it. The frames mirror these
calls and the error, and both forms of the report show them in this order. -/
theorem frames_mirror_calls {Notes : Type} {file text : String} {e : Encoding} {p : Program}
    {r : Registry Notes} {heapSize fuel : Nat} {silent : Bool} {console : Console}
    {origin : Machine} {journal : Journal Notes} {observed : Observed Notes} {error : RuntimeError}
    (parsed : Program.parse file e text = .ok p)
    (reachable : Reachable r p (start heapSize silent console) origin)
    (ran : origin.run fuel (.empty : Registry Notes) p journal = some observed)
    (stopped : observed.stop = some (.fault error)) :
    (∃ made, RunsTo p origin made observed.machine (some (.fault error)) ∧
      ∀ before last, made = before ++ [last] → last.stop ≠ none →
        observed.machine.calls = last.before.calls ∧
          (error.Names last.entry ∨ ∃ raised, last.before.console.Raises (.runtime raised) ∧
            error = raised.atStep last.before.pointer last.before.executed)) ∧
    Traceback.Mirrors file text p observed.machine.calls.reverse error
      (Traceback.frames p observed.machine error) ∧
    (∀ verbose, ∃ details, Traceback.text p observed.machine error verbose =
      String.intercalate "\n" (["Traceback (most recent call last):"] ++
        (Traceback.frames p observed.machine error).flatMap Frame.lines ++ details)) ∧
    ∃ fields, Traceback.json p observed.machine error = .record (fields ++
      [("traceback", .list ((Traceback.frames p observed.machine error).mapIdx Frame.json))]) := by
  have inBounds : observed.machine.InBounds p heapSize :=
    (Reachable.origin.run ran).invariant (reachable.inBounds (Program.wellFormed_of_parse parsed))
      (fun _ _ before next => perform_inBounds (Program.wellFormed_of_parse parsed) before next)
      (fun _ before => before.reset)
  refine ⟨?_, Traceback.frames_mirror parsed inBounds error, fun verbose => ?_, [_, _, _, _], rfl⟩
  · obtain ⟨made, runs⟩ := runsTo_of_run ran
    rw [stopped] at runs
    refine ⟨made, runs, ?_⟩
    rintro before last rfl fails
    obtain ⟨same, stops⟩ := runs.stops_at_last fails
    exact ⟨same ▸ Step.calls_of_stops fails, perform_error stops⟩
  · rw [Traceback.text, List.append_assoc]
    exact ⟨_, rfl⟩

def addsInCall : Program :=
  .ofList [⟨.flow, .call, some (.label "1" (some 2)), some ⟨"adds.stl", 1, 1⟩⟩,
    ⟨.flow, .exit, none, some ⟨"adds.stl", 1, 6⟩⟩,
    ⟨.flow, .mark, some (.label "1" (some 2)), some ⟨"adds.stl", 1, 9⟩⟩,
    ⟨.arithmetic, .add, none, some ⟨"adds.stl", 1, 14⟩⟩,
    ⟨.flow, .ret, none, some ⟨"adds.stl", 1, 18⟩⟩]

/-- The addition lacks its values. The report shows the call, and then the addition under the name
of the label. -/
theorem addition_in_call_reported :
    ∃ (observed : Observed Unit) (error : RuntimeError),
      Program.parse "adds.stl" .stl "LSTTLLLLLSSTLTSSSLTL" = .ok addsInCall ∧
      (start 0 false (.ofText "")).run 3 .empty addsInCall ⟨#[], ()⟩ = some observed ∧
      observed.stop = some (.fault error) ∧ observed.machine.calls = [0] ∧
      Traceback.Mirrors "adds.stl" "LSTTLLLLLSSTLTSSSLTL" addsInCall [0] error
        (Traceback.frames addsInCall observed.machine error) ∧
      (Traceback.frames addsInCall observed.machine error).map
        (fun frame => (frame.name, frame.pointer)) =
          [("<top-level>", some 0), ("label '1'", some 3)] := by
  have parsed : Program.parse "adds.stl" .stl "LSTTLLLLLSSTLTSSSLTL" = .ok addsInCall := rfl
  have fresh : Reachable (.empty : Registry Unit) addsInCall (start 0 false (.ofText "")) _ :=
    .origin
  have ran : (start 0 false (.ofText "")).run 3 .empty addsInCall ⟨#[], ()⟩ =
    some (_ : Observed Unit) := rfl
  obtain ⟨-, mirrors, -, -⟩ := frames_mirror_calls parsed fresh ran rfl
  exact ⟨_, _, parsed, ran, rfl, rfl, mirrors, rfl⟩

end Machine

end Whitespace
