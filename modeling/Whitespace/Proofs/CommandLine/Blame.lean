import Whitespace.Proofs.CommandLine.Outcome
import Whitespace.Proofs.Machine.Lockstep
import Whitespace.Proofs.Observer.Loading

/-!
# Blame for files that cannot be read

The command says under the name of the source file that it could not be read. It also says this,
under the same name, of every error of the system that loading an extension raises: the extension is
a folder that is named like a module, or it opens a file that is not there. No other failure is told
in this way: everything else that goes to the standard error starts differently.

Results:
1. `Machine.run_traces`: what stands in a trace.
2. `CommandLine.stderr_cases`: what the command writes to the standard error, stage by stage.
3. `CommandLine.blames_source_iff`: when the source file is blamed.
-/

namespace Whitespace

variable {Notes : Type}

/-! ## Traces -/

/-- What stands in the trace are texts of snapshots. -/
def Journal.TracesSteps (journal : Journal Notes) : Prop :=
  ∀ text ∈ journal.trace, ∃ snapshot : Snapshot, text = snapshot.text

/-- A run writes nothing but texts of snapshots into the trace. -/
theorem Machine.run_traces {fuel : Nat} {r : Registry Notes} {p : Program} {m : Machine}
    {journal : Journal Notes} {observed : Observed Notes}
    (ran : m.run fuel r p journal = some observed) (traces : journal.TracesSteps) :
    observed.journal.TracesSteps := by
  let R (journal journal' : Journal Notes) : Prop := journal' = journal ∧ journal.TracesSteps
  have rules : r.RulesAgree R r := by
    intro m i journal journal' related
    refine StepRule.callAll_alike (List.forall₂_same.mpr fun rule _ => ⟨rfl, ?_⟩) related
    rintro journal _ ⟨rfl, traces⟩
    unfold StepRule.call
    cases rule.action with
    | react react => exact .intro ⟨rfl, traces⟩
    | trace =>
      refine .intro ⟨rfl, ?_⟩
      intro text member
      rcases Array.mem_push.mp member with earlier | rfl
      · exact traces text earlier
      · exact ⟨_, rfl⟩
  have hooks : r.HooksAgree R r := by
    rintro event journal _ ⟨rfl, traces⟩
    exact .intro ⟨rfl, traces⟩
  have alike := run_alike (p := p) rules hooks fuel m ⟨rfl, traces⟩
  rw [ran] at alike
  cases alike with
  | some alike =>
    obtain ⟨-, traces⟩ := alike
    exact traces

namespace CommandLine

/-! ## How reports start -/

theorem head?_append {heading : String} {c : Char} (first : heading.toList.head? = some c)
    (rest : String) : (heading ++ rest).toList.head? = some c := by
  rw [String.toList_append, List.head?_append, first]
  rfl

/-- The text does not start as blame for a file does. -/
def IsOther (text : String) : Prop :=
  text.toList.head? ≠ some 'F'

theorem IsOther.empty : IsOther "" :=
  nofun

theorem IsOther.append {a b : String} (ha : IsOther a) (hb : IsOther b) : IsOther (a ++ b) := by
  unfold IsOther at ha hb ⊢
  rw [String.toList_append, List.head?_append]
  cases first : a.toList.head? with
  | none => exact hb
  | some c => rwa [first] at ha

theorem IsOther.of_head? {heading : String} {c : Char} (first : heading.toList.head? = some c)
    (other : c ≠ 'F') (rest : String) : IsOther (heading ++ rest) := by
  unfold IsOther
  rw [head?_append first]
  exact fun h => other (Option.some.inj h)

theorem IsOther.line {text : String} (h : IsOther text) : IsOther (line text) :=
  h.append (by unfold IsOther; decide)

theorem isOther_status {text : String} (s : Settings) (h : IsOther text) :
    IsOther (status s text) := by
  unfold status
  split
  · exact .empty
  · exact h.line

theorem isOther_snapshot (snapshot : Snapshot) : IsOther snapshot.text := by
  unfold Snapshot.text
  simp only [List.cons_append]
  rw [String.intercalate_cons_of_ne_nil (by simp)]
  simp only [String.append_assoc]
  have first : "[step ".toList.head? = some '[' := rfl
  exact IsOther.of_head? first (by decide) _

theorem IsOther.join {texts : List String} (h : ∀ text ∈ texts, IsOther text) :
    IsOther (String.join texts) := by
  induction texts with
  | nil => exact .empty
  | cons text texts ih =>
    obtain ⟨first, rest⟩ := List.forall_mem_cons.mp h
    rw [String.join_cons]
    exact first.append (ih rest)

theorem isOther_traces {journal : Journal Notes} (traces : journal.TracesSteps) :
    IsOther (String.join (journal.trace.toList.map line)) := by
  refine .join fun text member => ?_
  obtain ⟨told, traced, rfl⟩ := List.mem_map.mp member
  obtain ⟨snapshot, rfl⟩ := traces told (Array.mem_toList_iff.mp traced)
  exact (isOther_snapshot snapshot).line

theorem configReport_head? (e : ConfigError) :
    (configReport e).2.toList.head? = none ∨ (configReport e).2.toList.head? = some 'I' := by
  have first : "Invalid configuration: ".toList.head? = some 'I' := rfl
  cases e with
  | encodingRemoved | sizeRemoved => exact .inl rfl
  | unknownEncoding | negativeSize => exact .inr (head?_append (head?_append first _) _)

theorem sourceReport_cases (failure : SourceFailure) :
    (∃ file error, failure = .unreadable file error) ∨ IsOther (sourceReport failure).2 := by
  cases failure with
  | unreadable file error => exact .inl ⟨file, error, rfl⟩
  | pathRemoved | invalidPath | undecodable => exact .inr .empty
  | illFormed failure =>
    cases failure with
    | digitLimit => exact .inr .empty
    | malformed error =>
      have first : "ParseError: ".toList.head? = some 'P' := rfl
      exact .inr (IsOther.of_head? first (by decide) _).line

theorem loadReport_cases (file : Option String) (e : LoadError) :
    (∃ failure, e = .raised failure ∧ failure.kind = .system) ∨ IsOther (loadReport file e).2 := by
  have parse : "ParseError: ".toList.head? = some 'P' := rfl
  have extension : "ExtensionError: ".toList.head? = some 'E' := rfl
  unfold loadReport
  cases kind : e.failure.kind with
  | system =>
    cases e with
    | raised failure => exact .inl ⟨failure, rfl, kind⟩
    | pathRemoved | notFound | notLoadable | otherVersion | noRegistration => cases kind
  | decoding => exact .inr (IsOther.of_head? parse (by decide) _).line
  | extension => exact .inr (IsOther.of_head? extension (by decide) _).line
  | other => exact .inr .empty

/-- An error of the system is told as if it were about the source file. -/
theorem loadReport_system (file : Option String) {failure : Failure}
    (system : failure.kind = .system) :
    (loadReport file (.raised failure)).2 =
      unreadableReport (file.getD "[]") failure.notice.text := by
  simp only [loadReport, LoadError.failure, system]

theorem isOther_conclude (s : Settings) (p : Program) (m : Machine) (stop : Option Stop)
    (elapsed : String) : IsOther (conclude s p m stop elapsed).2 := by
  cases stop with
  | none =>
    have executed : "\n\nexecuted ".toList.head? = some '\n' := rfl
    have took : "\n\nroutine took ".toList.head? = some '\n' := rfl
    unfold conclude
    rw [String.append_assoc]
    exact (isOther_status s (.of_head? executed (by decide) _)).append
      (isOther_status s (.of_head? took (by decide) _))
  | some stop =>
    cases stop with
    | fault error =>
      obtain ⟨rest, text⟩ := exists_traceback p m error s.debug
      have first : "Traceback (most recent call last):".toList.head? = some 'T' := rfl
      unfold conclude
      simp only [text, line, String.append_assoc]
      exact .of_head? first (by decide) _
    | divisionByZero i =>
      have first : "ArithmeticError: ".toList.head? = some 'A' := rfl
      exact (IsOther.of_head? first (by decide) _).line
    | digitLimit | outsideProgram | foreign => exact .empty

/-- What is told of a run, behind the first line of the command. -/
theorem runReport_err (s : Settings) (p : Program) (elapsed : String) {observed : Observed Notes}
    (traces : observed.journal.TracesSteps) :
    ∃ text, (runReport s p elapsed observed).err = initializing s ++ text ∧ IsOther text := by
  have initialized : "initialized in ".toList.head? = some 'i' := rfl
  have starting : "starting to execute whitespace routine...\n\n".toList.head? = some 's' := rfl
  unfold runReport
  simp only [String.append_assoc]
  refine ⟨_, rfl, ?_⟩
  refine (isOther_status s (.of_head? initialized (by decide) _)).append ?_
  refine (isOther_status s ?_).append ((isOther_traces traces).append
    (isOther_conclude s p _ _ elapsed))
  unfold IsOther
  rw [starting]
  decide

/-! ## Stages -/

/-- `Tells folder s config text`: this is what the command writes to the standard error behind its
first line. The source file fails, or an extension does, or neither and then nothing is written that
starts as blame does. -/
inductive Tells (folder : Folder Notes) (s : Settings) (config : Config) : String → Prop
  | source {failure : SourceFailure}
      (loaded : s.raw = true ∨
        ∃ registry, folder.loadObservers s.extensions s.debug s.debugHeap = .ok registry)
      (fails : SourceFails config folder.read failure) :
      Tells folder s config (sourceReport failure).2
  | extension {e : LoadError} (runs : s.raw = false)
      (refused : folder.loadObservers s.extensions s.debug s.debugHeap = .error e) :
      Tells folder s config (loadReport config.file e).2
  | other {text : String} (other : IsOther text) : Tells folder s config text

section

variable {fuel : Nat} {folder : Folder Notes} {input : String} {s : Settings} {notes : Notes}
  {elapsed : String} {config : Config} {report : Report Notes}

theorem execute_of_sourceRefused {failure : SourceFailure} (configured : configure s = .ok config)
    (loaded : s.raw = true ∨
      ∃ registry, folder.loadObservers s.extensions s.debug s.debugHeap = .ok registry)
    (fails : SourceFails config folder.read failure) :
    execute fuel folder input s notes elapsed =
      some ⟨(sourceReport failure).1, "", initializing s ++ (sourceReport failure).2, notes⟩ := by
  have tried : ∃ registry,
      s.raw = true ∨ folder.loadObservers s.extensions s.debug s.debugHeap = .ok registry := by
    rcases loaded with raw | ⟨registry, loaded⟩
    · exact ⟨.empty, .inl raw⟩
    · exact ⟨registry, .inr loaded⟩
  obtain ⟨registry, loaded⟩ := tried
  exact execute_of_sourceFails configured loaded fails

theorem execute_of_loadFails {e : LoadError} (configured : configure s = .ok config)
    (runs : s.raw = false)
    (refused : folder.loadObservers s.extensions s.debug s.debugHeap = .error e) :
    execute fuel folder input s notes elapsed =
      some ⟨(loadReport config.file e).1, "", initializing s ++ (loadReport config.file e).2,
        notes⟩ := by
  simp only [execute, prepare, configured, runs, Bool.false_eq_true, ↓reduceIte, refused,
    initializing]

theorem execute_of_tooLarge {registry : Registry Notes} {p : Program} {problem : Heap.SizeProblem}
    (configured : configure s = .ok config) (runs : s.raw = false)
    (loaded : folder.loadObservers s.extensions s.debug s.debugHeap = .ok registry)
    (read : readProgram config folder.read = .ok p)
    (tooLarge : Heap.sizeProblem? config.heapSize = some problem) :
    execute fuel folder input s notes elapsed =
      some ⟨.escaped ⟨problem.name, problem.message⟩, "", initializing s, notes⟩ := by
  simp only [execute, prepare, configured, runs, Bool.false_eq_true, ↓reduceIte, loaded, read,
    tooLarge, initializing]

/-- What the command writes to the standard error if its settings are accepted. -/
theorem stderr_cases (configured : configure s = .ok config)
    (ended : execute fuel folder input s notes elapsed = some report) :
    ∃ text, report.err = initializing s ++ text ∧ Tells folder s config text := by
  have nothing : initializing s = initializing s ++ "" := String.append_empty.symm
  cases raw : s.raw with
  | true =>
    rcases readProgram_cases config folder.read with ⟨failure, fails⟩ | ⟨_, _, _, p, _, _, -, read⟩
    · rw [execute_of_sourceRefused configured (.inl raw) fails] at ended
      cases ended
      exact ⟨_, rfl, .source (.inl raw) fails⟩
    · rw [execute_of_raw configured raw read] at ended
      cases ended
      exact ⟨"", nothing, .other .empty⟩
  | false =>
    cases loaded : folder.loadObservers s.extensions s.debug s.debugHeap with
    | error e =>
      rw [execute_of_loadFails configured raw loaded] at ended
      cases ended
      exact ⟨_, rfl, .extension raw loaded⟩
    | ok registry =>
      rcases readProgram_cases config folder.read with
        ⟨failure, fails⟩ | ⟨_, _, _, p, _, _, -, read⟩
      · rw [execute_of_sourceFails configured (.inr loaded) fails] at ended
        cases ended
        exact ⟨_, rfl, .source (.inr ⟨registry, loaded⟩) fails⟩
      · cases fits : Heap.sizeProblem? config.heapSize with
        | some problem =>
          rw [execute_of_tooLarge configured raw loaded read fits] at ended
          cases ended
          exact ⟨"", nothing, .other .empty⟩
        | none =>
          rw [execute_of_run configured raw loaded read fits] at ended
          obtain ⟨observed, ran, rfl⟩ := Option.map_eq_some_iff.mp ended
          have traces : observed.journal.TracesSteps :=
            Machine.run_traces ran fun text member => absurd member (Array.not_mem_empty text)
          obtain ⟨text, err, other⟩ := runReport_err s p elapsed traces
          exact ⟨text, err, .other other⟩

/-! ## Blame -/

/-- The name under which the command speaks of the source file; an empty list stands for a path that
was removed. -/
def sourceName (s : Settings) : String :=
  s.file.toOption.getD "[]"

/-- Behind its first line, the command says that it could not read the source file. -/
def BlamesSource (s : Settings) (err : String) : Prop :=
  ∃ reason, err = initializing s ++ unreadableReport (sourceName s) reason

theorem configure_file (configured : configure s = .ok config) :
    config.file = s.file.toOption := by
  unfold configure at configured
  split at configured
  · cases configured
  · split at configured
    · cases configured
    · split at configured
      · cases configured
        rfl
      · cases configured
      · split at configured
        · cases configured
        · cases configured
          rfl

theorem unreadableReport_head? (file reason : String) :
    (unreadableReport file reason).toList.head? = some 'F' := by
  have first : "Failed to read ".toList.head? = some 'F' := rfl
  exact head?_append (head?_append (head?_append (head?_append first _) _) _) _

/-- Settings that are not accepted are no blame. -/
theorem not_blamesSource_configReport (s : Settings) (e : ConfigError) :
    ¬BlamesSource s (configReport e).2 := by
  rintro ⟨reason, same⟩
  have blame := unreadableReport_head? (sourceName s) reason
  have starts : (configReport e).2.toList.head? = some 'F' ∨
      (configReport e).2.toList.head? = some 'i' := by
    rw [same]
    unfold initializing status
    split
    · rw [String.empty_append]
      exact .inl blame
    · exact .inr (head?_append rfl _)
  rcases configReport_head? e with nothing | invalid
  · simp [nothing] at starts
  · simp [invalid] at starts

/-- Behind its first line, the command blames the source file exactly if it writes this. -/
theorem blamesSource_append {text : String} :
    BlamesSource s (initializing s ++ text) ↔
      ∃ reason, text = unreadableReport (sourceName s) reason := by
  unfold BlamesSource
  simp only [String.append_right_inj]

/-- When the source file is blamed. It could not be opened, or else it was not tried, because the
first of the extensions that was not loaded raised an error of the system. -/
theorem blames_source_iff {arguments : List String} (accepted : readSettings arguments = .ok s)
    (ended : run fuel folder input arguments notes elapsed = some (.report report)) :
    BlamesSource s report.err ↔ ∃ config, configure s = .ok config ∧
      ((∃ file error, config.file = some file ∧ '\x00' ∉ file.toList ∧
          folder.read file = .error error ∧
          (s.raw = true ∨ ∃ registry,
            folder.loadObservers s.extensions s.debug s.debugHeap = .ok registry)) ∨
        (s.raw = false ∧ ∃ (paths : List String) (failure : Failure),
          s.extensions = paths.map some ∧ failure.kind = .system ∧
            folder.FirstRefuses paths (.raised failure))) := by
  rw [run_of_settings accepted] at ended
  obtain ⟨_, ended, same⟩ := Option.map_eq_some_iff.mp ended
  cases same
  cases configured : configure s with
  | error e =>
    rw [execute_of_configError configured] at ended
    cases ended
    simp [not_blamesSource_configReport]
  | ok config =>
    have name : sourceName s = config.file.getD "[]" := by
      rw [sourceName, configure_file configured]
    constructor
    · intro blames
      obtain ⟨text, err, tells⟩ := stderr_cases configured ended
      rw [err, blamesSource_append] at blames
      obtain ⟨reason, rfl⟩ := blames
      have blame := unreadableReport_head? (sourceName s) reason
      refine ⟨config, rfl, ?_⟩
      generalize unreadableReport (sourceName s) reason = text at tells blame
      cases tells with
      | other other => exact absurd blame other
      | @source failure loaded fails =>
        obtain ⟨file, error, rfl⟩ :=
          (sourceReport_cases failure).resolve_right fun other => other blame
        cases fails with
        | unreadable path valid refused => exact .inl ⟨file, error, path, valid, refused, loaded⟩
      | @extension e runs refused =>
        obtain ⟨failure, rfl, system⟩ :=
          (loadReport_cases config.file e).resolve_right fun other => other blame
        have kept : LoadError.raised failure ≠ .pathRemoved := nofun
        obtain ⟨paths, given, first⟩ := (Folder.loadObservers_error_iff kept).mp refused
        exact .inr ⟨runs, paths, failure, given, system, first⟩
    · rintro ⟨_, ⟨⟩, ⟨file, error, path, valid, refused, loaded⟩ |
        ⟨runs, paths, failure, given, system, first⟩⟩
      · have fails : SourceFails config folder.read (.unreadable file error) :=
          .unreadable path valid refused
        rw [execute_of_sourceRefused configured loaded fails] at ended
        cases ended
        exact ⟨_, by rw [name, path]; rfl⟩
      · have kept : LoadError.raised failure ≠ .pathRemoved := nofun
        have refused : folder.loadObservers s.extensions s.debug s.debugHeap = _ :=
          (Folder.loadObservers_error_iff kept).mpr ⟨paths, given, first⟩
        rw [execute_of_loadFails configured runs refused] at ended
        cases ended
        exact ⟨_, by rw [name, loadReport_system config.file system]⟩

end

/-- A source file that is not there is blamed. -/
theorem missing_source_blamed :
    ∃ s report, readSettings ["-f", "p.stl", "-t", "stl"] = .ok s ∧
      run 0 ({ path := "/tmp/w", entries := [] } : Folder Unit) "" ["-f", "p.stl", "-t", "stl"] ()
        "" = some (.report report) ∧ BlamesSource s report.err := by
  have accepted : readSettings ["-f", "p.stl", "-t", "stl"] =
      .ok { file := .given "p.stl", sourceType := .given "stl" } := rfl
  have ended : run 0 ({ path := "/tmp/w", entries := [] } : Folder Unit) ""
      ["-f", "p.stl", "-t", "stl"] () "" = some (.report _) := rfl
  refine ⟨_, _, accepted, ended, (blames_source_iff accepted ended).mpr ?_⟩
  exact ⟨_, rfl, .inl ⟨"p.stl", .notFound, rfl, by decide, rfl, .inr ⟨_, rfl⟩⟩⟩

/-- A folder with a program, and another folder that is named like a module. -/
def moduleFolder : Folder Unit where
  path := "/tmp/w"
  entries := [("p.stl", .file [76, 76, 76]), ("x.py", .folder)]
  load := fun path _ =>
    .raised ⟨.system, ⟨"IsADirectoryError", FileError.isDirectory.message path⟩⟩

/-- A source file that can be read, and that decodes, is blamed for a folder that is named like a
module. -/
theorem readable_source_blamed :
    ∃ s report p, readSettings ["-f", "p.stl", "-t", "stl", "--ext", "x.py"] = .ok s ∧
      run 0 moduleFolder "" ["-f", "p.stl", "-t", "stl", "--ext", "x.py"] () "" =
        some (.report report) ∧
      readProgram ⟨some "p.stl", .stl, defaultHeapSize⟩ moduleFolder.read = .ok p ∧
      report.err = initializing s ++
        line "Failed to read p.stl: [Errno 21] Is a directory: '/tmp/w/x.py'" ∧
      BlamesSource s report.err :=
  ⟨_, _, _, rfl, rfl, rfl, rfl, "[Errno 21] Is a directory: '/tmp/w/x.py'", rfl⟩

end CommandLine

end Whitespace
