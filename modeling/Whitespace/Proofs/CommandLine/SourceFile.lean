import Whitespace.Proofs.CommandLine.FileText
import Whitespace.Proofs.Program.Agreement

/-!
# Source files

A source file is a text in UTF-8, of which the line breaks are unified before it is decoded. The
program of the file is that of the text, unless line feeds are tokens and a carriage return stands
alone: it is a comment of the text, but in the file it is read as a line feed.

Results:
1. `CommandLine.readProgram_cases`: a source file yields a program, or it fails in one of five ways.
2. `CommandLine.readProgram_toUTF8`: what is read of a file that holds a text.
3. `CommandLine.readProgram_alike`: how the program of a file and that of its text compare.
-/

namespace Whitespace

open Text (HasLoneReturn)

namespace Encoding

theorem kind?_whitespace_eq_lineFeed_iff {c : Char} :
    whitespace.kind? c = some .lineFeed ↔ c = '\n' := by
  unfold kind?
  split <;> simp_all

theorem count_lineFeed_whitespace (cs : List Char) :
    (cs.filterMap whitespace.kind?).count .lineFeed = cs.count '\n' := by
  rw [List.count_filterMap]
  exact List.countP_congr fun c _ => by simp [kind?_whitespace_eq_lineFeed_iff]

end Encoding

namespace CommandLine

/-- The source file of a configuration is a file of these bytes. -/
structure Config.Opens (config : Config) (content : String → Except FileError (List UInt8))
    (file : String) (bytes : List UInt8) : Prop where
  path : config.file = some file
  valid : '\x00' ∉ file.toList
  content : content file = .ok bytes

variable {config : Config} {content : String → Except FileError (List UInt8)} {file text : String}
  {bytes : List UInt8}

/-- `SourceFails config content failure`: the source file of `config` does not yield a program, and
`failure` is why. -/
inductive SourceFails (config : Config) (content : String → Except FileError (List UInt8)) :
    SourceFailure → Prop
  | pathRemoved (removed : config.file = none) : SourceFails config content .pathRemoved
  | invalidPath {file : String} (path : config.file = some file) (null : '\x00' ∈ file.toList) :
      SourceFails config content .invalidPath
  | unreadable {file : String} {error : FileError} (path : config.file = some file)
      (valid : '\x00' ∉ file.toList) (refused : content file = .error error) :
      SourceFails config content (.unreadable file error)
  | undecodable {file : String} {bytes : List UInt8} {fault : Utf8.Fault}
      (opens : config.Opens content file bytes) (refused : fileText bytes = .error fault) :
      SourceFails config content (.undecodable fault)
  | illFormed {file text : String} {bytes : List UInt8} {failure : DecodeFailure}
      (opens : config.Opens content file bytes) (read : fileText bytes = .ok text)
      (failed : Program.parse file config.encoding text = .error failure) :
      SourceFails config content (.illFormed failure)

theorem Config.Opens.readProgram_undecodable {fault : Utf8.Fault}
    (h : config.Opens content file bytes) (refused : fileText bytes = .error fault) :
    readProgram config content = .error (.undecodable fault) := by
  simp only [readProgram, h.path, List.contains_eq_mem, h.valid, decide_false, Bool.false_eq_true,
    ↓reduceIte, h.content, refused]

theorem Config.Opens.readProgram_text (h : config.Opens content file bytes)
    (read : fileText bytes = .ok text) :
    readProgram config content =
      (Program.parse file config.encoding text).mapError .illFormed := by
  simp only [readProgram, h.path, List.contains_eq_mem, h.valid, decide_false, Bool.false_eq_true,
    ↓reduceIte, h.content, read]

theorem SourceFails.eq {failure : SourceFailure} (h : SourceFails config content failure) :
    readProgram config content = .error failure := by
  cases h with
  | pathRemoved removed => simp only [readProgram, removed]
  | invalidPath path null =>
    simp only [readProgram, path, List.contains_eq_mem, null, decide_true, ↓reduceIte]
  | unreadable path valid refused =>
    simp only [readProgram, path, List.contains_eq_mem, valid, decide_false, Bool.false_eq_true,
      ↓reduceIte, refused]
  | undecodable opens refused => exact opens.readProgram_undecodable refused
  | illFormed opens read failed =>
    rw [opens.readProgram_text read, failed]
    rfl

/-- The source file fails, or it is opened, read and decoded. -/
theorem readProgram_cases (config : Config) (content : String → Except FileError (List UInt8)) :
    (∃ failure, SourceFails config content failure) ∨
      ∃ file bytes text p, config.Opens content file bytes ∧ fileText bytes = .ok text ∧
        Program.parse file config.encoding text = .ok p ∧ readProgram config content = .ok p := by
  cases path : config.file with
  | none => exact .inl ⟨_, .pathRemoved path⟩
  | some file =>
    by_cases null : '\x00' ∈ file.toList
    · exact .inl ⟨_, .invalidPath path null⟩
    cases content_eq : content file with
    | error e => exact .inl ⟨_, .unreadable path null content_eq⟩
    | ok bytes =>
      have opens : config.Opens content file bytes := ⟨path, null, content_eq⟩
      cases read : fileText bytes with
      | error fault => exact .inl ⟨_, .undecodable opens read⟩
      | ok text =>
        cases parsed : Program.parse file config.encoding text with
        | error failure => exact .inl ⟨_, .illFormed opens read parsed⟩
        | ok p =>
          refine .inr ⟨file, bytes, text, p, opens, read, parsed, ?_⟩
          rw [opens.readProgram_text read, parsed]
          rfl

/-- What is read of a file that holds a text in UTF-8. -/
theorem readProgram_toUTF8 (opens : config.Opens content file text.toUTF8.data.toList) :
    readProgram config content =
      (Program.parse file config.encoding
        (String.ofList (Text.unifyBreaks text.toList))).mapError .illFormed :=
  opens.readProgram_text (fileText_toUTF8 text)

/-- Let a file hold a text in UTF-8, and let another text have the same tokens, as the text itself
has. What is read of the file and what the other text is the program of are alike, unless line feeds
are tokens and the text of the file has a carriage return that stands alone. Then they are not the
same program. -/
theorem readProgram_alike {text' : String}
    (opens : config.Opens content file text.toUTF8.data.toList)
    (htokens : text'.toList.filterMap config.encoding.kind? =
      text.toList.filterMap config.encoding.kind?) (file' : String) :
    ∃ result, readProgram config content = result.mapError .illFormed ∧
      (config.encoding = .stl ∨ ¬HasLoneReturn text.toList →
        Program.Alike result (Program.parse file' config.encoding text')) ∧
      (config.encoding = .whitespace → HasLoneReturn text.toList →
        ∀ p q, result = .ok p → Program.parse file' config.encoding text' = .ok q →
          ¬p.Agrees q) := by
  refine ⟨_, readProgram_toUTF8 opens, fun hplain => ?_, ?_⟩
  · refine Program.parse_congr ?_
    rw [String.toList_ofList, Text.kinds_unifyBreaks hplain, htokens]
  · intro hencoding hlone p q hp hq hagrees
    -- The file has more line feeds than the text, and programs that agree have as many.
    have hcount := Text.count_lt_count_unifyBreaks hlone
    have hpcount := Program.lineFeeds_of_parse hp
    have hqcount := Program.lineFeeds_of_parse hq
    rw [String.toList_ofList, hencoding, Encoding.count_lineFeed_whitespace] at hpcount
    rw [htokens, hencoding, Encoding.count_lineFeed_whitespace] at hqcount
    have := hagrees.lineFeeds_eq
    omega

/-- A carriage return that stands alone between letters is a comment. -/
theorem readProgram_alike_letters :
    ∃ result,
      readProgram ⟨some "p.stl", .stl, 0⟩ (fun _ => .ok "S\rS".toUTF8.data.toList) =
        result.mapError .illFormed ∧
      Program.Alike result (Program.parse "text" .stl "SS") := by
  have opens : Config.Opens ⟨some "p.stl", .stl, 0⟩ (fun _ => .ok "S\rS".toUTF8.data.toList) "p.stl"
      "S\rS".toUTF8.data.toList :=
    ⟨rfl, by decide, rfl⟩
  have htokens : "SS".toList.filterMap Encoding.stl.kind? =
      "S\rS".toList.filterMap Encoding.stl.kind? := rfl
  obtain ⟨result, hread, halike, -⟩ := readProgram_alike opens htokens "text"
  exact ⟨result, hread, halike (.inl rfl)⟩

/-- A carriage return alone is the empty program, but a file of it is ill-formed. -/
theorem lone_return_is_line_feed :
    Program.parse "p.ws" .whitespace "\r" = .ok ⟨#[]⟩ ∧
      readProgram ⟨some "p.ws", .whitespace, 0⟩ (fun _ => .ok "\r".toUTF8.data.toList) =
        .error (.illFormed (.malformed ⟨.commandMissing .flow, ⟨"p.ws", .start⟩⟩)) := by
  refine ⟨rfl, ?_⟩
  rw [readProgram_toUTF8 ⟨rfl, by decide, rfl⟩]
  rfl

end CommandLine

end Whitespace
