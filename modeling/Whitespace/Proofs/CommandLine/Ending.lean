import Whitespace.Proofs.CommandLine.SourceFile
import Whitespace.Proofs.Grammar.Failure
import Whitespace.Proofs.Machine.Completion

/-!
# How the command ends

The command checks its settings, reads the source file, and shows or runs the program. Each of these
may fail, and most failures are reported and give a status. Some are not: a value that was removed as
a separator, a path with a null character, a file that is not UTF-8, and numbers of more digits than
are converted, in an operand of the program or in a line of its input.

Results:
1. `CommandLine.execute_of_configError`, `CommandLine.execute_of_sourceFails`,
   `CommandLine.execute_of_raw`, `CommandLine.execute_of_run`: what the command comes to, stage by
   stage.
2. `CommandLine.run_status_iff`: without extensions the command ends with a status exactly unless one
   of the failures above occurs; `CommandLine.invalid_bytes_escape` is such a case.
-/

namespace Whitespace.CommandLine

open Machine (start ComesToOverlong)

variable {Notes : Type}

/-! ## Lines and reports -/

/-- The text consists of whole lines. -/
def IsLines (text : String) : Prop :=
  ∃ lines : List String, text = String.join (lines.map line)

/-- What the report on an error starts with. -/
def headings : List String :=
  ["Invalid configuration: ", "Failed to read ", "ParseError: ",
    "Traceback (most recent call last):", "ArithmeticError: "]

/-- The text ends with the report on an error, on lines of its own. -/
def Reported (text : String) : Prop :=
  ∃ before heading rest, IsLines before ∧ heading ∈ headings ∧
    text = before ++ line (heading ++ rest)

theorem IsLines.empty : IsLines "" :=
  ⟨[], rfl⟩

theorem IsLines.join (lines : List String) : IsLines (String.join (lines.map line)) :=
  ⟨lines, rfl⟩

theorem IsLines.append {a b : String} (ha : IsLines a) (hb : IsLines b) : IsLines (a ++ b) := by
  obtain ⟨lines, rfl⟩ := ha
  obtain ⟨lines', rfl⟩ := hb
  exact ⟨lines ++ lines', by rw [List.map_append, String.join_append]⟩

theorem isLines_status (s : Settings) (text : String) : IsLines (status s text) := by
  unfold status
  split
  · exact .empty
  · exact ⟨[text], by rw [List.map_singleton, String.join_cons, String.join_nil, String.append_empty]⟩

/-- The line about the progress of the command with which it starts. -/
def initializing (s : Settings) : String :=
  status s
    "initializing, loading and parsing the provided source, creating the virtual machine..."

def runReport (s : Settings) (p : Program) (elapsed : String) (observed : Observed Notes) :
    Report Notes where
  exit := (conclude s p observed.machine observed.stop elapsed).1
  out := observed.machine.console.shown
  err := initializing s ++ status s ("initialized in " ++ elapsed) ++
    status s "starting to execute whitespace routine...\n\n" ++
    String.join (observed.journal.trace.toList.map line) ++
    (conclude s p observed.machine observed.stop elapsed).2
  notes := observed.journal.notes

/-! ## Stages -/

section

variable {fuel : Nat} {folder : Folder Notes} {input : String} {s : Settings} {notes : Notes}
  {elapsed : String} {config : Config} {p : Program} {registry : Registry Notes}

theorem execute_of_configError {e : ConfigError} (refused : configure s = .error e) :
    execute fuel folder input s notes elapsed =
      some ⟨(configReport e).1, "", (configReport e).2, notes⟩ := by
  simp only [execute, prepare, refused]

/-- Extensions are loaded first, but only for a run. -/
theorem execute_of_sourceFails {failure : SourceFailure} (configured : configure s = .ok config)
    (loaded : s.raw = true ∨
      folder.loadObservers s.extensions s.debug s.debugHeap = .ok registry)
    (fails : SourceFails config folder.read failure) :
    execute fuel folder input s notes elapsed =
      some ⟨(sourceReport failure).1, "", initializing s ++ (sourceReport failure).2, notes⟩ := by
  cases raw : s.raw with
  | true => simp only [execute, prepare, configured, fails.eq, raw, ↓reduceIte, initializing]
  | false =>
    have loaded := loaded.resolve_left (by rw [raw]; nofun)
    simp only [execute, prepare, configured, fails.eq, raw, Bool.false_eq_true, ↓reduceIte, loaded,
      initializing]

theorem execute_of_raw (configured : configure s = .ok config) (raw : s.raw = true)
    (read : readProgram config folder.read = .ok p) :
    execute fuel folder input s notes elapsed =
      some ⟨.status 0, rawLines p, initializing s, notes⟩ := by
  simp only [execute, prepare, configured, read, raw, ↓reduceIte, initializing]

theorem execute_of_run (configured : configure s = .ok config) (raw : s.raw = false)
    (loaded : folder.loadObservers s.extensions s.debug s.debugHeap = .ok registry)
    (read : readProgram config folder.read = .ok p)
    (fits : Heap.sizeProblem? config.heapSize = none) :
    execute fuel folder input s notes elapsed =
      ((start config.heapSize s.noOutput (.ofText input)).run fuel registry p ⟨#[], notes⟩).map
        (runReport s p elapsed) := by
  simp only [execute, prepare, configured, raw, Bool.false_eq_true, ↓reduceIte, loaded, read, fits]
  rfl

end

/-! ## Reports -/

theorem Reported.intro {before : String} (hb : IsLines before) (heading rest : String)
    (hh : heading ∈ headings) : Reported (before ++ line (heading ++ rest)) :=
  ⟨before, heading, rest, hb, hh, rfl⟩

/-- Settings that are not accepted are reported, unless a value was removed. -/
theorem configReport_cases {s : Settings} {e : ConfigError} (refused : configure s = .error e) :
    ((configReport e).1 = .status 1 ∧ Reported (configReport e).2) ∨
      s.sourceType.toOption = none ∨
        ∃ name encoding, s.sourceType.toOption = some name ∧
          Encoding.ofName? name = some encoding ∧ s.heapSize = .removed := by
  have reported (text : String) : Reported (line ("Invalid configuration: " ++ text)) := by
    simpa using Reported.intro .empty "Invalid configuration: " text (by simp [headings])
  unfold configure at refused
  split at refused
  · next h => exact .inr (.inl h)
  · next name hname =>
    split at refused
    · cases refused
      exact .inl ⟨rfl, reported _⟩
    · next encoding hencoding =>
      split at refused
      · cases refused
      · next h => exact .inr (.inr ⟨name, encoding, hname, hencoding, h⟩)
      · split at refused
        · cases refused
          exact .inl ⟨rfl, reported _⟩
        · cases refused

theorem exists_traceback (p : Program) (m : Machine) (e : RuntimeError) (verbose : Bool) :
    ∃ rest, Traceback.text p m e verbose = "Traceback (most recent call last):" ++ rest := by
  simp only [Traceback.text, List.append_assoc, List.cons_append]
  rw [String.intercalate_cons_of_ne_nil (by simp), String.append_assoc]
  exact ⟨_, rfl⟩

/-- A run that ends by a runtime error or a division by zero is reported. -/
theorem conclude_of_error {s : Settings} {p : Program} {m : Machine} {stop : Option Stop}
    {elapsed : String}
    (h : (∃ error, stop = some (.fault error)) ∨ ∃ i, stop = some (.divisionByZero i)) :
    (conclude s p m stop elapsed).1 = .status 1 ∧
      ∀ before, IsLines before → Reported (before ++ (conclude s p m stop elapsed).2) := by
  rcases h with ⟨error, rfl⟩ | ⟨i, rfl⟩
  · refine ⟨rfl, fun before hb => ?_⟩
    obtain ⟨rest, hrest⟩ := exists_traceback p m error s.debug
    have reported (rest : String) :
        Reported (before ++ line ("Traceback (most recent call last):" ++ rest)) :=
      .intro hb _ _ (by simp [headings])
    simp only [conclude, hrest]
    split
    · -- The report in JSON follows on the lines of the other.
      have h := reported (rest ++ "\n" ++ (Traceback.json p m error).pretty)
      simpa only [line, String.append_assoc] using h
    · rw [String.append_empty]
      exact reported rest
  · exact ⟨rfl, fun before hb => .intro hb _ _ (by simp [headings])⟩

theorem runReport_reported {s : Settings} {p : Program} {elapsed : String}
    {observed : Observed Notes}
    (h : (∃ error, observed.stop = some (.fault error)) ∨
      ∃ i, observed.stop = some (.divisionByZero i)) :
    (runReport s p elapsed observed).exit = .status 1 ∧
      Reported (runReport s p elapsed observed).err := by
  obtain ⟨hexit, hreported⟩ := conclude_of_error h
  refine ⟨hexit, hreported _ ?_⟩
  exact (((isLines_status s _).append (isLines_status s _)).append (isLines_status s _)).append
    (.join _)

/-! ## Failures that are not reported -/

/-- What keeps the command, without extensions, from ending with a status. -/
inductive Escapes (folder : Folder Notes) (input : String) (s : Settings) (notes : Notes) : Prop
  | encodingRemoved (removed : s.sourceType.toOption = none)
  | sizeRemoved {name : String} {encoding : Encoding} (given : s.sourceType.toOption = some name)
      (known : Encoding.ofName? name = some encoding) (removed : s.heapSize = .removed)
  | pathRemoved {config : Config} (configured : configure s = .ok config)
      (removed : config.file = none)
  | invalidPath {config : Config} {file : String} (configured : configure s = .ok config)
      (path : config.file = some file) (null : '\x00' ∈ file.toList)
  | undecodable {config : Config} {file : String} {bytes : List UInt8} {fault : Utf8.Fault}
      (configured : configure s = .ok config) (opens : config.Opens folder.read file bytes)
      (refused : fileText bytes = .error fault)
  | overlongOperand {config : Config} {file text : String} {bytes : List UInt8}
      (configured : configure s = .ok config) (opens : config.Opens folder.read file bytes)
      (read : fileText bytes = .ok text)
      (overlong : Overlong (text.toList.filterMap config.encoding.kind?))
  | overlongLine {config : Config} {p : Program} (configured : configure s = .ok config)
      (raw : s.raw = false) (read : readProgram config folder.read = .ok p)
      (comes : ComesToOverlong (.builtin s.debug s.debugHeap) p
        (start config.heapSize s.noOutput (.ofText input)) ⟨#[], notes⟩)

theorem parse_digitLimit_iff {file text : String} {encoding : Encoding} :
    Program.parse file encoding text = .error .digitLimit ↔
      Overlong (text.toList.filterMap encoding.kind?) := by
  rw [← kinds_ofText, ← decode_digitLimit_iff file, Program.parse]
  cases decode file (Source.ofText encoding text).tokens <;> simp [Except.map]

section

variable {fuel : Nat} {folder : Folder Notes} {input : String} {s : Settings} {notes : Notes}
  {elapsed : String} {report : Report Notes}

theorem loadObservers_of_nil (folder : Folder Notes) (h : s.extensions = []) :
    folder.loadObservers s.extensions s.debug s.debugHeap = .ok (.builtin s.debug s.debugHeap) := by
  rw [h]
  rfl

theorem Escapes.escaped (h : Escapes folder input s notes) (noExtensions : s.extensions = [])
    (fits : ∀ config, configure s = .ok config → Heap.sizeProblem? config.heapSize = none)
    (ended : execute fuel folder input s notes elapsed = some report) :
    ∃ notice, report.exit = .escaped notice := by
  have loaded := loadObservers_of_nil folder noExtensions
  have fails {config : Config} {failure : SourceFailure} {notice : Notice}
      (configured : configure s = .ok config) (fails : SourceFails config folder.read failure)
      (escapes : (sourceReport failure).1 = .escaped notice) :
      ∃ notice, report.exit = .escaped notice := by
    rw [execute_of_sourceFails configured (.inr loaded) fails] at ended
    cases ended
    exact ⟨notice, escapes⟩
  cases h with
  | encodingRemoved removed =>
    have refused : configure s = .error .encodingRemoved := by simp only [configure, removed]
    rw [execute_of_configError refused] at ended
    cases ended
    exact ⟨_, rfl⟩
  | sizeRemoved given known removed =>
    have refused : configure s = .error .sizeRemoved := by
      simp only [configure, given, known, removed]
    rw [execute_of_configError refused] at ended
    cases ended
    exact ⟨_, rfl⟩
  | pathRemoved configured removed => exact fails configured (.pathRemoved removed) rfl
  | invalidPath configured path null => exact fails configured (.invalidPath path null) rfl
  | undecodable configured opens refused => exact fails configured (.undecodable opens refused) rfl
  | overlongOperand configured opens read overlong =>
    exact fails configured (.illFormed opens read (parse_digitLimit_iff.mpr overlong)) rfl
  | overlongLine configured raw read comes =>
    obtain ⟨m, i, told, digits, comes, overlong⟩ := comes
    rw [execute_of_run configured raw loaded read (fits _ configured)] at ended
    obtain ⟨observed, ran, rfl⟩ := Option.map_eq_some_iff.mp ended
    have hstop := comes.run_of_overlong overlong ran
    exact ⟨(Stop.digitLimit digits).notice, by rw [runReport, hstop]; rfl⟩

/-- A source file that fails is reported, unless it keeps the command from ending with a status. -/
theorem SourceFails.reported_or_escapes {config : Config} {failure : SourceFailure}
    (h : SourceFails config folder.read failure) (configured : configure s = .ok config) :
    ((sourceReport failure).1 = .status 1 ∧
        ∀ before, IsLines before → Reported (before ++ (sourceReport failure).2)) ∨
      Escapes folder input s notes := by
  cases h with
  | pathRemoved removed => exact .inr (.pathRemoved configured removed)
  | invalidPath path null => exact .inr (.invalidPath configured path null)
  | undecodable opens refused => exact .inr (.undecodable configured opens refused)
  | @unreadable file e path valid refused =>
    refine .inl ⟨rfl, fun before hb => ?_⟩
    have h := Reported.intro hb "Failed to read " (file ++ ": " ++ e.message file)
      (by simp [headings])
    simpa only [sourceReport, unreadableReport, String.append_assoc] using h
  | @illFormed _ _ _ failure opens read failed =>
    cases failure with
    | malformed error => exact .inl ⟨rfl, fun before hb => .intro hb _ _ (by simp [headings])⟩
    | digitLimit =>
      exact .inr (.overlongOperand configured opens read (parse_digitLimit_iff.mp failed))

theorem status_or_escapes (noExtensions : s.extensions = [])
    (fits : ∀ config, configure s = .ok config → Heap.sizeProblem? config.heapSize = none)
    (ended : execute fuel folder input s notes elapsed = some report) :
    (report.exit = .status 0 ∨ report.exit = .status 1 ∧ Reported report.err) ∨
      Escapes folder input s notes := by
  have loaded := loadObservers_of_nil folder noExtensions
  cases configured : configure s with
  | error e =>
    rw [execute_of_configError configured] at ended
    cases ended
    rcases configReport_cases configured with h | h | ⟨name, encoding, given, known, removed⟩
    · exact .inl (.inr h)
    · exact .inr (.encodingRemoved h)
    · exact .inr (.sizeRemoved given known removed)
  | ok config =>
    rcases readProgram_cases config folder.read with ⟨failure, fails⟩ | ⟨_, _, _, p, _, _, hp, read⟩
    · rw [execute_of_sourceFails configured (.inr loaded) fails] at ended
      cases ended
      exact (fails.reported_or_escapes configured).imp_left fun ⟨hexit, h⟩ =>
        .inr ⟨hexit, h _ (isLines_status s _)⟩
    cases raw : s.raw with
    | true =>
      rw [execute_of_raw configured raw read] at ended
      cases ended
      exact .inl (.inl rfl)
    | false =>
      rw [execute_of_run configured raw loaded read (fits _ configured)] at ended
      obtain ⟨observed, ran, rfl⟩ := Option.map_eq_some_iff.mp ended
      by_cases comes : ComesToOverlong (.builtin s.debug s.debugHeap) p
          (start config.heapSize s.noOutput (.ofText input)) ⟨#[], notes⟩
      · exact .inr (.overlongLine configured raw read comes)
      have hw := Program.wellFormed_of_parse hp
      have device := Console.not_raises_ofText input
      rcases (Machine.run_in_taxonomy_iff hw device (.builtin _ _) ran).mpr comes
        with h | h
      · refine .inl (.inl ?_)
        rw [runReport, h]
        rfl
      · exact .inl (.inr (runReport_reported h))

end

/-- Let the arguments be accepted, name no extension, and give a heap that fits. If the command then
ends, it ends with status zero, or with status one and a report on the standard error, exactly
unless one of the failures occurs that are not reported. -/
theorem run_status_iff {fuel : Nat} {folder : Folder Notes} {input : String}
    {arguments : List String} {s : Settings} {notes : Notes} {elapsed : String}
    {report : Report Notes} (accepted : readSettings arguments = .ok s)
    (noExtensions : s.extensions = [])
    (fits : ∀ config, configure s = .ok config → Heap.sizeProblem? config.heapSize = none)
    (ended : run fuel folder input arguments notes elapsed = some (.report report)) :
    (report.exit = .status 0 ∨ report.exit = .status 1 ∧ Reported report.err) ↔
      ¬Escapes folder input s notes := by
  have ended : execute fuel folder input s notes elapsed = some report := by
    simpa [run, accepted] using ended
  constructor
  · intro h escapes
    obtain ⟨notice, hexit⟩ := escapes.escaped noExtensions fits ended
    rw [hexit] at h
    rcases h with h | ⟨h, -⟩ <;> cases h
  · exact (status_or_escapes noExtensions fits ended).resolve_right

/-- A source file that is not there is reported. -/
theorem missing_file_reported :
    ∃ s report, readSettings ["-f", "p.stl", "-t", "stl"] = .ok s ∧
      run 0 ({ path := "/tmp/w", entries := [] } : Folder Unit) "" ["-f", "p.stl", "-t", "stl"] ()
        "" = some (.report report) ∧
      report.exit = .status 1 ∧ Reported report.err ∧
      ¬Escapes ({ path := "/tmp/w", entries := [] } : Folder Unit) "" s () := by
  let s : Settings := { file := .given "p.stl", sourceType := .given "stl" }
  have accepted : readSettings ["-f", "p.stl", "-t", "stl"] = .ok s := rfl
  have fits (config : Config) (h : configure s = .ok config) :
      Heap.sizeProblem? config.heapSize = none := by
    cases h
    rfl
  have ended : run 0 ({ path := "/tmp/w", entries := [] } : Folder Unit) ""
      ["-f", "p.stl", "-t", "stl"] () "" = some (.report ⟨.status 1, "", initializing s ++
        line ("Failed to read " ++ "p.stl: [Errno 2] No such file or directory: 'p.stl'"), ()⟩) :=
    rfl
  have reported : Reported (initializing s ++
      line ("Failed to read " ++ "p.stl: [Errno 2] No such file or directory: 'p.stl'")) :=
    .intro (isLines_status _ _) _ _ (by simp [headings])
  exact ⟨s, _, accepted, ended, rfl, reported,
    (run_status_iff accepted rfl fits ended).mp (.inr ⟨rfl, reported⟩)⟩

/-- A source file of one byte with which no character starts: the command ends with no status. -/
theorem invalid_bytes_escape :
    ∃ s report, readSettings ["-f", "p.stl", "-t", "stl"] = .ok s ∧ s.extensions = [] ∧
      run 0 ({ path := "/tmp/w", entries := [("p.stl", .file [0xFF])] } : Folder Unit) ""
        ["-f", "p.stl", "-t", "stl"] () "" = some (.report report) ∧
      ¬(report.exit = .status 0 ∨ report.exit = .status 1 ∧ Reported report.err) := by
  refine ⟨_, _, rfl, rfl, rfl, ?_⟩
  rintro (h | ⟨h, -⟩) <;> cases h

end Whitespace.CommandLine
