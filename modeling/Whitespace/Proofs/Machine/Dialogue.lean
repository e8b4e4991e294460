import Whitespace.Proofs.Machine.Input

/-!
# Dialogues on a stream

A console on a stream of text serves requests in any order: characters are read, with or without
being shown again, lines are read, and texts are shown. What is read makes up the stream, in its
order, with nothing left out and nothing given twice. A line feed ends a line, whoever reads it, and
once a request to read is answered by no text there is nothing left for any other one.

Results:
1. `Text.unified_unifyBreaks`: what stands in the stream for the line breaks of a text.
2. `splitLine_of_break`, `splitLine_of_no_break`: where a line ends.
3. `exists_answers_serve`, `shown_serve`: what one call takes from the stream and what it shows.
4. `exists_dialogue`: a dialogue goes on where its last call left the stream.
5. `dialogue_reads_stream`: all this in terms of a text and the requests.
-/

namespace Whitespace

/-- `Unified raw text`: the text is `raw` with its line breaks unified.

* `pair`: a carriage return and the line feed behind it read as one line feed.
* `lone`: so does a carriage return without one.
* `other`: every other character reads as it is. -/
inductive Text.Unified : List Char → List Char → Prop
  | nil : Unified [] []
  | pair {raw text : List Char} (rest : Unified raw text) :
    Unified ('\r' :: '\n' :: raw) ('\n' :: text)
  | lone {raw text : List Char} (next : raw.head? ≠ some '\n') (rest : Unified raw text) :
    Unified ('\r' :: raw) ('\n' :: text)
  | other {c : Char} {raw text : List Char} (ne : c ≠ '\r') (rest : Unified raw text) :
    Unified (c :: raw) (c :: text)

theorem Text.unified_unifyBreaks (raw : List Char) : Unified raw (unifyBreaks raw) := by
  induction raw using unifyBreaks.induct with
  | case1 => exact .nil
  | case2 raw ih => exact .pair ih
  | case3 raw notPair ih =>
    have next : raw.head? ≠ some '\n' := by
      intro next
      obtain ⟨rest, rfl⟩ := List.head?_eq_some_iff.mp next
      exact notPair rest rfl
    simpa only [unifyBreaks] using Unified.lone next ih
  | case4 c raw _ notReturn ih => simpa only [unifyBreaks] using Unified.other notReturn ih

namespace Console

inductive Request where
  | readChar (echo : Bool)
  | readLine
  | emit (text : String)

/-- A request and its answer. There is none to a text that is shown. -/
structure Call where
  request : Request
  answer : Option (Except Raised String)

def serve (c : Console) (request : Request) : Call × Console :=
  match request with
  | .readChar echo => (⟨request, some (c.readChar echo).1⟩, (c.readChar echo).2)
  | .readLine => (⟨request, some c.readLine.1⟩, c.readLine.2)
  | .emit text => (⟨request, none⟩, c.emit text)

def serveEach (c : Console) : List Request → List Call × Console
  | [] => ([], c)
  | request :: requests =>
    let (call, c) := c.serve request
    let (calls, c) := c.serveEach requests
    (call :: calls, c)

namespace Call

/-- The text that a call reads. -/
def read (call : Call) : List Char :=
  match call.answer with
  | some (.ok text) => text.toList
  | _ => []

/-- The text that a call shows: the text it is to show, or what it reads if that is shown again. -/
def shown (call : Call) : String :=
  match call.request with
  | .readChar true => String.ofList call.read
  | .readChar false | .readLine => ""
  | .emit text => text

end Call

/-- `Answers pending call left`: what a call answers when the text `pending` has not been read, and
what it leaves of it.

* `char`: the next character.
* `ended`: no character, at the end of the text.
* `line`: the text up to the next line feed and with it.
* `lastLine`: all of the text if there is no line feed in it, which may be no text.
* `shown`: nothing, to a text that is shown. -/
inductive Answers : List Char → Call → List Char → Prop
  | char {c : Char} {left : List Char} {echo : Bool} :
    Answers (c :: left) ⟨.readChar echo, some (.ok (String.singleton c))⟩ left
  | ended {echo : Bool} : Answers [] ⟨.readChar echo, some (.ok "")⟩ []
  | line {line left : List Char} (inner : '\n' ∉ line) :
    Answers (line ++ '\n' :: left) ⟨.readLine, some (.ok (String.ofList (line ++ ['\n'])))⟩ left
  | lastLine {line : List Char} (inner : '\n' ∉ line) :
    Answers line ⟨.readLine, some (.ok (String.ofList line))⟩ []
  | shown {text : String} {pending : List Char} : Answers pending ⟨.emit text, none⟩ pending

/-- `Dialogue pending calls left`: calls that answer one another's rest of a text. -/
inductive Dialogue : List Char → List Call → List Char → Prop
  | nil {pending : List Char} : Dialogue pending [] pending
  | cons {pending between left : List Char} {call : Call} {calls : List Call}
    (here : Answers pending call between) (later : Dialogue between calls left) :
    Dialogue pending (call :: calls) left

variable {c : Console} {pending left : List Char} {call : Call} {calls : List Call}

/-! ## Lines -/

theorem splitLine_of_break {line : List Char} (inner : '\n' ∉ line) (left : List Char) :
    splitLine (line ++ '\n' :: left) = (line ++ ['\n'], left) := by
  induction line with
  | nil => simp [splitLine]
  | cons c line ih =>
    obtain ⟨ne, inner⟩ := List.ne_and_not_mem_of_not_mem_cons inner
    rw [List.cons_append, splitLine, if_neg (Ne.symm ne), ih inner]
    rfl

theorem splitLine_of_no_break {line : List Char} (inner : '\n' ∉ line) :
    splitLine line = (line, []) := by
  induction line with
  | nil => rfl
  | cons c line ih =>
    obtain ⟨ne, inner⟩ := List.ne_and_not_mem_of_not_mem_cons inner
    rw [splitLine, if_neg (Ne.symm ne), ih inner]

/-! ## One call -/

theorem exists_answers_serve (h : c.input = .stream pending) (request : Request) :
    ∃ left, (c.serve request).2.input = .stream left ∧
      Answers pending (c.serve request).1 left := by
  cases request with
  | emit text => exact ⟨pending, h, .shown⟩
  | readChar echo =>
    cases pending with
    | nil => exact ⟨[], by simp [serve, readChar, h], by simpa [serve, readChar, h] using .ended⟩
    | cons char left =>
      refine ⟨left, ?_, by simpa [serve, readChar, h] using .char⟩
      cases echo <;> simp [serve, readChar, h, emit]
  | readLine =>
    simp only [serve, readLine, h]
    by_cases inner : '\n' ∈ pending
    · obtain ⟨line, left, rfl, before⟩ := List.eq_append_cons_of_mem inner
      rw [splitLine_of_break before]
      exact ⟨left, rfl, .line before⟩
    · rw [splitLine_of_no_break inner]
      exact ⟨[], rfl, .lastLine inner⟩

theorem request_serve (c : Console) (request : Request) :
    (c.serve request).1.request = request := by
  cases request <;> rfl

theorem shown_serve (h : c.input = .stream pending) (request : Request) :
    (c.serve request).2.shown = c.shown ++ (c.serve request).1.shown := by
  cases request with
  | emit text => rfl
  | readLine => simp [serve, readLine, h, Call.shown]
  | readChar echo =>
    cases pending <;> cases echo <;>
      simp [serve, readChar, h, emit, Call.shown, Call.read]

/-- A call reads the front of what is pending. -/
theorem Answers.pending_eq (h : Answers pending call left) : pending = call.read ++ left := by
  cases h <;> simp [Call.read]

/-- Where a read yields no text, the end is reached. -/
theorem Answers.eq_nil_of_empty (h : Answers pending call left)
    (empty : call.answer = some (.ok "")) : pending = [] := by
  cases h with
  | char => simp at empty
  | ended => rfl
  | line => simp at empty
  | lastLine => simpa using empty
  | shown => cases empty

/-- At the end a read yields no text. -/
theorem Answers.empty_of_nil (h : Answers pending call left) (ended : pending = []) :
    ∀ answer ∈ call.answer, answer = .ok "" := by
  cases h with
  | char => cases ended
  | line => simp at ended
  | shown => exact fun _ asked => absurd asked (Option.not_mem_none _)
  | ended | lastLine =>
    subst_vars
    rintro _ ⟨⟩
    rfl

/-! ## Calls that follow one another -/

/-- On a stream each call goes on where the one before it stopped. -/
theorem exists_dialogue (h : c.input = .stream pending) (requests : List Request) :
    ∃ left, (c.serveEach requests).2.input = .stream left ∧
      Dialogue pending (c.serveEach requests).1 left ∧
      (c.serveEach requests).1.map Call.request = requests ∧
      (c.serveEach requests).2.shown =
        c.shown ++ String.join ((c.serveEach requests).1.map Call.shown) := by
  induction requests generalizing c pending with
  | nil => exact ⟨pending, h, .nil, rfl, by simp [serveEach]⟩
  | cons request requests ih =>
    obtain ⟨between, stream, here⟩ := exists_answers_serve h request
    obtain ⟨left, rest, later, answered, shown⟩ := ih stream
    refine ⟨left, rest, .cons here later, ?_, ?_⟩
    · rw [serveEach, List.map_cons, request_serve, answered]
    · rw [serveEach, List.map_cons, String.join_cons, shown, shown_serve h, String.append_assoc]

namespace Dialogue

theorem pending_eq (h : Dialogue pending calls left) :
    pending = calls.flatMap Call.read ++ left := by
  induction h with
  | nil => rfl
  | cons here _ ih => rw [here.pending_eq, ih, List.flatMap_cons, List.append_assoc]

/-- Every call is answered from what the calls before it left, and leaves the rest to those after
it. -/
theorem exists_answers {before after : List Call}
    (h : Dialogue pending (before ++ call :: after) left) :
    ∃ here between, Dialogue pending before here ∧ Answers here call between ∧
      Dialogue between after left := by
  induction before generalizing pending with
  | nil =>
    cases h with
    | cons here later => exact ⟨pending, _, .nil, here, later⟩
  | cons first before ih =>
    cases h with
    | cons first later =>
      obtain ⟨here, between, upToHere, answers, later⟩ := ih later
      exact ⟨here, between, .cons first upToHere, answers, later⟩

/-- From the end on every read yields no text. -/
theorem empty_of_nil (h : Dialogue pending calls left) (ended : pending = []) :
    ∀ call ∈ calls, ∀ answer ∈ call.answer, answer = .ok "" := by
  induction h with
  | nil => exact List.forall_mem_nil _
  | cons here _ ih =>
    have left := (List.append_eq_nil_iff.mp (here.pending_eq.symm.trans ended)).2
    exact List.forall_mem_cons.mpr ⟨here.empty_of_nil ended, ih left⟩

end Dialogue

/-- What the requests to a console on a text read is a front of the text, with its line breaks
unified: each call is answered from what the calls before it have left. A call that reads no text
stands at the end of it, and then every later one does. What is shown are the texts of the calls in
their order. -/
theorem dialogue_reads_stream (text : String) (requests : List Request) :
    let calls := ((ofText text).serveEach requests).1
    let c := ((ofText text).serveEach requests).2
    calls.map Call.request = requests ∧
      c.shown = String.join (calls.map Call.shown) ∧
      ∃ stream left, Text.Unified text.toList stream ∧ c.input = .stream left ∧
        stream = calls.flatMap Call.read ++ left ∧
        ∀ before call after, calls = before ++ call :: after →
          (∃ here between, stream = before.flatMap Call.read ++ here ∧
            Answers here call between) ∧
          (call.answer = some (.ok "") →
            stream = before.flatMap Call.read ∧
            ∀ later ∈ after, ∀ answer ∈ later.answer, answer = .ok "") := by
  obtain ⟨left, rest, dialogue, answered, shown⟩ :=
    exists_dialogue (c := ofText text) rfl requests
  generalize (ofText text).serveEach requests = result at *
  obtain ⟨calls, c⟩ := result
  refine ⟨answered, shown.trans (String.empty_append ..), _, left, Text.unified_unifyBreaks _, rest,
    dialogue.pending_eq, ?_⟩
  rintro before call after rfl
  obtain ⟨here, between, upToHere, answers, later⟩ := dialogue.exists_answers
  refine ⟨⟨here, between, upToHere.pending_eq, answers⟩, fun empty => ?_⟩
  have ended : here = [] := answers.eq_nil_of_empty empty
  have left : between = [] := (List.append_eq_nil_iff.mp (answers.pending_eq.symm.trans ended)).2
  refine ⟨?_, later.empty_of_nil left⟩
  rw [← List.append_nil (before.flatMap _), ← ended]
  exact upToHere.pending_eq

/-- A line feed behind a carriage return is not read a second time. -/
example :
    (((ofText "a\r\nb").serveEach [.readChar true, .readChar false, .emit "?", .readLine]).1.map
      Call.read) = [['a'], ['\n'], [], ['b']] := by
  rfl

end Console

end Whitespace
