import FencedCode.CommandLine.Run
import FencedCode.FileTree
import FencedCode.Proofs.Output.Limits

/-!
# Runs and the functions they are made of

What a run on a working standard output comes to, in terms of the functions of the library alone:
the settings are put together, the file is read, all blocks of its text are extracted, and their
encodings are written one after the other (`reference`). The program looks for one block at a time
and writes it before the next, and it does more than that on standard error; with the filter that is
in force when none is asked for, neither can be told from outside (`execute_eq_reference`).
-/
namespace FencedCode

/-! ## Standard error -/

/-- The standard filter shows errors and nothing else. -/
theorem LogFilter.admits_standard_iff (level : LogLevel) :
    standard.admits level = true ↔ level = .error := by
  cases level <;> decide

/-- No remark of a scan is an error. -/
theorem Scan.Record.level_ne_error (record : Scan.Record) : record.level ≠ .error := by
  cases record <;> simp [Scan.Record.level]

namespace CommandLine

/-- What is printed about the end of a run. -/
def Outcome.ending (outcome : Outcome) (wording : Wording) : Text :=
  (outcome.failure.map (Failure.report wording)).getD []

/-- A log without errors is not shown. -/
theorem Outcome.stderr_standard {outcome : Outcome}
    (h : ∀ line ∈ outcome.log, line.level ≠ .error) (wording : Wording) (stamps : Nat → Text) :
    outcome.stderr wording stamps .standard = outcome.ending wording := by
  have hshown : (outcome.log.filter fun line => LogFilter.standard.admits line.level) = [] := by
    rw [List.filter_eq_nil_iff]
    intro line hline
    rw [LogFilter.admits_standard_iff]
    exact h line hline
  rw [Outcome.stderr, hshown, Outcome.ending]
  cases outcome.failure <;> rfl

section

variable (wording : Wording) (files : TextFiles) (stdout : Stdout)

/-- A run logs notices of its own and the remarks of the scan, and nothing else. -/
theorem notice_or_remark_of_mem_log_run (invocation : Invocation) {line : LogLine}
    (h : line ∈ (run files stdout invocation).log) :
    (∃ message, line = notice message) ∨ ∃ record, line = remark record := by
  have hscan {config : Config} {records : List Scan.Record}
      (h : line ∈ [settingsNotice config, scanNotice invocation.file config.target] ++
        records.map remark) :
      (∃ message, line = notice message) ∨ ∃ record, line = remark record := by
    rcases List.mem_append.mp h with h | h
    · have hcases : line = settingsNotice config ∨
          line = scanNotice invocation.file config.target := by simpa using h
      rcases hcases with rfl | rfl <;> exact Or.inl ⟨_, rfl⟩
    · obtain ⟨record, -, rfl⟩ := List.mem_map.mp h
      exact Or.inr ⟨record, rfl⟩
  -- one case for each way in which a run can end
  unfold run at h
  split at h
  · cases h
  · split at h
    · exact Or.inl ⟨_, List.mem_singleton.mp h⟩
    · dsimp only at h
      split at h
      · exact hscan h
      · rcases List.mem_append.mp h with h | h
        · exact hscan h
        · exact Or.inl ⟨_, List.mem_singleton.mp h⟩

/-- Arguments that ask for a run lead to it. -/
theorem execute_of_parse {arguments : List Text} {invocation : Invocation}
    (h : parse arguments = some (.run invocation)) :
    execute wording files stdout arguments = run files stdout invocation := by
  simp only [execute, h]

/-- What the program comes to: it cannot use its arguments, or it makes the run that they ask for,
or it prints a text about itself. -/
theorem execute_cases (arguments : List Text) :
    (parse arguments = none ∧
      execute wording files stdout arguments = .failed [usageNotice wording arguments] .usage) ∨
    (∃ invocation, parse arguments = some (.run invocation) ∧
      execute wording files stdout arguments = run files stdout invocation) ∨
    ∃ text, execute wording files stdout arguments = .printed stdout text := by
  rcases hparse : parse arguments with _ | invocation | long | _
  · exact Or.inl ⟨rfl, by simp only [execute, hparse]⟩
  · exact Or.inr (Or.inl ⟨invocation, rfl, execute_of_parse wording files stdout hparse⟩)
  · exact Or.inr (Or.inr ⟨_, by simp only [execute, hparse]; rfl⟩)
  · exact Or.inr (Or.inr ⟨_, by simp only [execute, hparse]; rfl⟩)

/-- Nothing that the program logs is an error. -/
theorem level_ne_error_of_mem_log (arguments : List Text) {line : LogLine}
    (h : line ∈ (execute wording files stdout arguments).log) : line.level ≠ .error := by
  have hkind : (∃ message, line = notice message) ∨ ∃ record, line = remark record := by
    rcases execute_cases wording files stdout arguments with
      ⟨-, houtcome⟩ | ⟨invocation, -, houtcome⟩ | ⟨text, houtcome⟩ <;> rw [houtcome] at h
    · exact Or.inl ⟨_, List.mem_singleton.mp h⟩
    · exact notice_or_remark_of_mem_log_run files stdout invocation h
    · cases h
  rcases hkind with ⟨message, rfl⟩ | ⟨record, rfl⟩
  · exact LogLevel.noConfusion
  · exact record.level_ne_error

/-- So with the standard filter it shows nothing on standard error but what ended it. -/
theorem stderr_execute_standard (arguments : List Text) (stamps : Nat → Text) :
    (execute wording files stdout arguments).stderr wording stamps .standard =
      (execute wording files stdout arguments).ending wording :=
  Outcome.stderr_standard
    (fun _ hline => level_ne_error_of_mem_log wording files stdout arguments hline) wording stamps

end

/-! ## Settings -/

/-- The configuration before the options: that of the file, if one is named. -/
def baseConfig (files : TextFiles) (path : Option Text) : Except LoadFault Config :=
  match path with
  | some path => Config.load files path
  | none => .ok .standard

/-- A configuration with the language and the format that are asked for. -/
def withOptions (config : Config) (invocation : Invocation) : Config where
  language := invocation.language.getD config.language
  fenceMarkers := config.fenceMarkers
  format := invocation.format.getD config.format

/-- The check that is made when a language is asked for, of it and of all markers. -/
def checkOptions (config : Config) (invocation : Invocation) : Except InvalidTag Unit :=
  if invocation.language.isSome then (withOptions config invocation).validate else .ok ()

/-- The settings in force fail with the configuration file first and with the language next. -/
theorem settings_eq (files : TextFiles) (invocation : Invocation) :
    settings files invocation =
      match baseConfig files invocation.config with
      | .error fault => .error (.config fault)
      | .ok base =>
        match checkOptions base invocation with
        | .error tag => .error (.language tag)
        | .ok () => .ok (withOptions base invocation) := by
  obtain ⟨file, language, format, path⟩ := invocation
  -- the check does not look at the format, which is put in place last
  have hcheck (base : Config) (language : Text) :
      checkOptions base ⟨file, some language, format, path⟩ =
        Config.validate { base with language := language } := rfl
  have hok (base : Config) : (Except.ok base).mapError Failure.config = pure base := rfl
  cases path with
  | none =>
    cases language with
    | none => rfl
    | some language =>
      simp only [settings, baseConfig, pure_bind, hcheck]
      rcases Config.validate { Config.standard with language := language } with tag | ⟨⟩ <;> rfl
  | some path =>
    simp only [settings, baseConfig]
    rcases Config.load files path with fault | base
    · rfl
    · cases language with
      | none => rfl
      | some language =>
        simp only [hok, pure_bind, hcheck]
        rcases Config.validate { base with language := language } with tag | ⟨⟩ <;> rfl

/-! ## Outcomes -/

section

variable {files : TextFiles} {invocation : Invocation} {base : Config}

/-- A fault in the configuration file comes first, and nothing is logged before it. -/
theorem run_of_base_error {fault : LoadFault} (stdout : Stdout)
    (h : baseConfig files invocation.config = .error fault) :
    run files stdout invocation = .failed [] (.config fault) := by
  have hsettings : settings files invocation = .error (.config fault) := by
    rw [settings_eq, h]
  rw [run, hsettings]

/-- Then the language asked for is checked, with nothing logged either. -/
theorem run_of_check_error {tag : InvalidTag} (stdout : Stdout)
    (h : baseConfig files invocation.config = .ok base)
    (hcheck : checkOptions base invocation = .error tag) :
    run files stdout invocation = .failed [] (.language tag) := by
  have hsettings : settings files invocation = .error (.language tag) := by
    simp only [settings_eq, h, hcheck]
  rw [run, hsettings]

/-- If neither is at fault, the settings are those of the file with the options. -/
theorem settings_of_ok (h : baseConfig files invocation.config = .ok base)
    (hcheck : checkOptions base invocation = .ok ()) :
    settings files invocation = .ok (withOptions base invocation) := by
  simp only [settings_eq, h, hcheck]

/-- A fault in the document comes last, after the notice of the settings. -/
theorem run_of_file_error {fault : ReadFault} (stdout : Stdout)
    (h : baseConfig files invocation.config = .ok base)
    (hcheck : checkOptions base invocation = .ok ())
    (hfile : files invocation.file = .error fault) :
    run files stdout invocation =
      .failed [settingsNotice (withOptions base invocation)]
        (.document ⟨invocation.file, fault⟩) := by
  rw [run, settings_of_ok h hcheck]
  simp only [Document.read, hfile]

/-- A working standard output takes all blocks of a scan. -/
theorem writeScan_working (format : Format) (text : Text) (language : Language) :
    let written := writeScan .working format ((Document.ofText text).scan language)
    let blocks := extractBlocks text language
    written.result = .ok blocks.length ∧ written.stdout = encodeAll format blocks :=
  writeBlocks_unlimited_drain format ((Document.ofText text).scan language)

/-- Without a fault all blocks are extracted and written. -/
theorem run_working_of_ok {text : Text} (h : baseConfig files invocation.config = .ok base)
    (hcheck : checkOptions base invocation = .ok ()) (hfile : files invocation.file = .ok text) :
    let config := withOptions base invocation
    let outcome := run files .working invocation
    outcome.stdout = encodeAll config.format (extractBlocks text config.target) ∧
      outcome.failure = none := by
  intro config outcome
  obtain ⟨hresult, hstdout⟩ := writeScan_working config.format text config.target
  have hrun : outcome = run files .working invocation := rfl
  rw [run, settings_of_ok h hcheck] at hrun
  simp only [Document.read, hfile] at hrun
  split at hrun
  · rename_i e he
    cases he.symm.trans hresult
  · rw [hrun]
    exact ⟨hstdout, rfl⟩

end

/-- What the program has to write, all blocks extracted before the first of them is written, or the
message of what prevents it: a fault in the configuration file, then an invalid language or marker
if a language is asked for, then a fault in the document. -/
def reference (wording : Wording) (files : TextFiles) (invocation : Invocation) :
    Except Text Bytes :=
  match baseConfig files invocation.config with
  | .error fault => .error (fault.message wording.syntaxError)
  | .ok base =>
    match checkOptions base invocation with
    | .error tag => .error tag.message
    | .ok () =>
      let config := withOptions base invocation
      match files invocation.file with
      | .error fault => .error (DocumentFault.mk invocation.file fault).message
      | .ok text => .ok (encodeAll config.format (extractBlocks text config.target))

/-- What can be told from outside of a run that fails with a message, at whatever times it logs. -/
structure Outcome.FailsWith (outcome : Outcome) (wording : Wording) (message : Text) : Prop where
  exitCode : outcome.exitCode = 1
  stdout : outcome.stdout = []
  stderr : ∀ stamps,
    outcome.stderr wording stamps .standard = "Error: ".toList ++ message ++ ['\n']

/-- What can be told from outside of a run that writes bytes, at whatever times it logs. -/
structure Outcome.Writes (outcome : Outcome) (wording : Wording) (bytes : Bytes) : Prop where
  exitCode : outcome.exitCode = 0
  stdout : outcome.stdout = bytes
  stderr : ∀ stamps, outcome.stderr wording stamps .standard = []

/-- **The program does what its functions do.** Whatever arguments ask for a run, on a working
standard output and with the standard filter it writes the encodings of all blocks that are
extracted from the text of the file in the settings asked for and nothing on standard error; or it
writes nothing, and the first failure is reported, that of a text that is not well-formed TOML in
the words of its reader, whatever these are. -/
theorem execute_eq_reference (wording : Wording) (files : TextFiles) (arguments : List Text)
    (invocation : Invocation) (h : parse arguments = some (.run invocation)) :
    match reference wording files invocation with
    | .error message => (execute wording files .working arguments).FailsWith wording message
    | .ok bytes => (execute wording files .working arguments).Writes wording bytes := by
  have hstderr := stderr_execute_standard wording files .working arguments
  rw [execute_of_parse wording files .working h] at hstderr ⊢
  -- in the order of the three failures
  rcases hbase : baseConfig files invocation.config with fault | base
  · rw [run_of_base_error .working hbase] at hstderr ⊢
    simp only [reference, hbase]
    exact ⟨rfl, rfl, hstderr⟩
  rcases hcheck : checkOptions base invocation with tag | ⟨⟩
  · rw [run_of_check_error .working hbase hcheck] at hstderr ⊢
    simp only [reference, hbase, hcheck]
    exact ⟨rfl, rfl, hstderr⟩
  rcases hfile : files invocation.file with fault | text
  · rw [run_of_file_error .working hbase hcheck hfile] at hstderr ⊢
    simp only [reference, hbase, hcheck, hfile]
    exact ⟨rfl, rfl, hstderr⟩
  · obtain ⟨hstdout, hfailure⟩ := run_working_of_ok hbase hcheck hfile
    simp only [reference, hbase, hcheck, hfile]
    refine ⟨?_, hstdout, ?_⟩
    · rw [Outcome.exitCode, hfailure]
      rfl
    · intro stamps
      rw [hstderr, Outcome.ending, hfailure]
      rfl

/-- What is said of the text `a`, a key without a value, and of a language that is given twice. -/
def sampleWording : Wording where
  syntaxError text :=
    Pointer.render parseHeading ⟨text, ⟨[], []⟩, "expected \x60.\x60, \x60=\x60".toList⟩
  usageError _ :=
    "the argument '--lang <NAME>' cannot be used multiple times\n\n".toList ++
      "Usage: extract-code-blocks [OPTIONS] <markdown-file>\n\n".toList ++
      "For more information, try '--help'.\n".toList

/-- A document `d` with an unclosed block, a configuration `v`, and two that are none: `i`, with a
language that no fence can carry, and `m`, which is not well-formed. -/
def sampleTree : FileTree :=
  .directory
    [(['d'], .file (Text.utf8 "\x60\x60\x60Sh,x\na\r\n\x60\x60\x60\n\x60\x60\x60py\nb".toList)),
      (['v'], .file (Text.utf8
        "language = \"c\"\nfence_markers = [\"py\"]\nformat = \"json\"".toList)),
      (['i'], .file (Text.utf8 "language = \"r s\"".toList)),
      (['m'], .file (Text.utf8 ['a']))]

/-- A language from the command line joins the markers and the format of a configuration file; but
the language of the file is checked first although another one takes its place. A file that is not
well-formed is reported on several lines. -/
theorem execute_eq_reference_overridden :
    (parse ["--config".toList, ['v'], ['d'], "--lang=sh".toList] =
        some (.run ⟨['d'], some ['s', 'h'], none, some ['v']⟩) ∧
      (execute sampleWording sampleTree.texts .working
        ["--config".toList, ['v'], ['d'], "--lang=sh".toList]).Writes sampleWording
        (Text.utf8
          ("\x7b\"start_line\":1,\"attributes\":\"x\",\"content\":\"a\"\x7d\n".toList ++
            "\x7b\"start_line\":4,\"attributes\":\"\",\"content\":\"b\"\x7d\n".toList))) ∧
    (parse [['d'], "--lang".toList, ['s', 'h'], "--config=i".toList] =
        some (.run ⟨['d'], some ['s', 'h'], none, some ['i']⟩) ∧
      (execute sampleWording sampleTree.texts .working
        [['d'], "--lang".toList, ['s', 'h'], "--config=i".toList]).FailsWith sampleWording
        ("Invalid config i: Invalid language: ".toList ++
          "fence tag cannot contain whitespace: \"r s\"".toList)) ∧
    parse ["--config=m".toList, ['d']] = some (.run ⟨['d'], none, none, some ['m']⟩) ∧
      (execute sampleWording sampleTree.texts .working ["--config=m".toList, ['d']]).FailsWith
        sampleWording
        ("Invalid config m: TOML parse error at line 1, column 2\n  |\n1 | a\n  |  ^\n".toList ++
          "expected \x60.\x60, \x60=\x60\n".toList) := by
  have hwritten : reference sampleWording sampleTree.texts
      ⟨['d'], some ['s', 'h'], none, some ['v']⟩ = .ok (Text.utf8
        ("\x7b\"start_line\":1,\"attributes\":\"x\",\"content\":\"a\"\x7d\n".toList ++
          "\x7b\"start_line\":4,\"attributes\":\"\",\"content\":\"b\"\x7d\n".toList)) := by
    decide +kernel
  have hinvalid : reference sampleWording sampleTree.texts
      ⟨['d'], some ['s', 'h'], none, some ['i']⟩ =
        .error
          ("Invalid config i: Invalid language: ".toList ++
            "fence tag cannot contain whitespace: \"r s\"".toList) := by
    decide +kernel
  have hmalformed : reference sampleWording sampleTree.texts ⟨['d'], none, none, some ['m']⟩ =
      .error
        ("Invalid config m: TOML parse error at line 1, column 2\n  |\n1 | a\n  |  ^\n".toList ++
          "expected \x60.\x60, \x60=\x60\n".toList) := by
    decide +kernel
  have hparse : parse ["--config".toList, ['v'], ['d'], "--lang=sh".toList] =
      some (.run ⟨['d'], some ['s', 'h'], none, some ['v']⟩) := by
    decide +kernel
  have hparse' : parse [['d'], "--lang".toList, ['s', 'h'], "--config=i".toList] =
      some (.run ⟨['d'], some ['s', 'h'], none, some ['i']⟩) := by
    decide +kernel
  have hparse'' : parse ["--config=m".toList, ['d']] =
      some (.run ⟨['d'], none, none, some ['m']⟩) := by
    decide +kernel
  have hwrites := execute_eq_reference sampleWording sampleTree.texts _ _ hparse
  have hfails := execute_eq_reference sampleWording sampleTree.texts _ _ hparse'
  have hfails' := execute_eq_reference sampleWording sampleTree.texts _ _ hparse''
  rw [hwritten] at hwrites
  rw [hinvalid] at hfails
  rw [hmalformed] at hfails'
  exact ⟨⟨hparse, hwrites⟩, ⟨hparse', hfails⟩, hparse'', hfails'⟩

end CommandLine

end FencedCode
