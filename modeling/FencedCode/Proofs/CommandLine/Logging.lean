import FencedCode.Proofs.CommandLine.Diagnostics
import FencedCode.Proofs.CommandLine.ScanStart
import FencedCode.Proofs.Document.Newlines

/-!
# Runs at different log levels

What can be told from outside of a run depends on the filter only in the log lines that are shown on
standard error. These are the lines of one and the same log, so those of a stricter filter are among
those of a looser one (`shown_filter`), and what ended the run is printed after all of them. Each is
shown with its level, where it comes from and its message (`LogLine.render_eq`), and at a time of
its own, which may differ from run to run.

A run that succeeds has drawn every block from the scan (`writeScan_of_result_ok`), although it
looks for one at a time. So its log holds all remarks of a complete scan between the notices of its
own, and the number of blocks that it gives is the number of all that are extracted
(`StartsScan.log_of_exitCode_zero`).
-/
namespace FencedCode

/-! ## How a line is shown -/

/-- A message is written line by line, the lines after the first one indented. -/
theorem indentLines_eq (message : Text) :
    indentLines message = "\n    ".toList.intercalate (message.splitOn '\n') := by
  rw [indentLines]
  induction message with
  | nil => rfl
  | cons c message ih =>
    obtain ⟨first, rest, hsplit⟩ := List.exists_cons_of_ne_nil (List.splitOn_ne_nil '\n' message)
    rw [hsplit] at ih
    rw [List.flatMap_cons, ih, List.splitOn_cons_eq_if_modifyHead, hsplit]
    by_cases hc : c = '\n'
    · -- a newline cuts off an empty line
      rw [if_pos hc, if_pos (beq_iff_eq.mpr hc), List.intercalate_cons_cons, List.nil_append]
    · rw [if_neg hc, if_neg (mt beq_iff_eq.mp hc), List.modifyHead_cons]
      cases rest <;> rfl

namespace LogLine

variable {line : LogLine} {stamp : Text}

/-- Without control characters in what it is made of, a line holds none. -/
theorem isShown_of_mem_entry
    (h : ∀ c ∈ stamp ++ line.target ++ line.message, Text.isShown c = true) :
    ∀ c ∈ line.entry stamp, Text.isShown c = true := by
  rw [List.forall_mem_append, List.forall_mem_append] at h
  obtain ⟨⟨hstamp, htarget⟩, hmessage⟩ := h
  have hname : ∀ c ∈ line.level.name, Text.isShown c = true := by
    cases line.level <;> exact List.all_eq_true.mp rfl
  have hpadding (n : Nat) : ∀ c ∈ List.replicate n ' ', Text.isShown c = true := by
    intro c hc
    rw [List.eq_of_mem_replicate hc]
    rfl
  have hbracket : ∀ c ∈ "] ".toList, Text.isShown c = true := List.all_eq_true.mp rfl
  have hindented : ∀ c ∈ indentLines line.message, Text.isShown c = true := by
    intro c hc
    obtain ⟨d, hd, hc⟩ := List.mem_flatMap.mp hc
    split at hc
    · have hindent : ∀ c ∈ "\n    ".toList, Text.isShown c = true := List.all_eq_true.mp rfl
      exact hindent c hc
    · rw [List.mem_singleton.mp hc]
      exact hmessage d hd
  -- the parts in the order in which they are written, brackets and blanks among them
  simp only [entry, List.cons_append, List.forall_mem_cons, List.forall_mem_append]
  exact ⟨rfl, ⟨⟨⟨⟨⟨hstamp, hname⟩, hpadding _⟩, rfl, htarget⟩, hbracket⟩, hindented⟩, rfl,
    List.forall_mem_nil _⟩

/-- Without control characters in what it is made of, a line is shown as it is written: between
brackets its stamp, its level in five characters and its target, then its message, the lines after
the first one indented, and a newline. -/
theorem render_eq (h : ∀ c ∈ stamp ++ line.target ++ line.message, Text.isShown c = true) :
    line.render stamp =
      '[' :: stamp ++ line.level.name.rightpad 5 ' ' ++ ' ' :: line.target ++ "] ".toList ++
        "\n    ".toList.intercalate (line.message.splitOn '\n') ++ ['\n'] := by
  rw [render, Text.withoutControls_eq_self (isShown_of_mem_entry h), entry, indentLines_eq,
    List.rightpad]
  simp only [List.append_assoc]

/-- Whatever a line quotes, what is shown of it stands in it in this order, and steers nothing. -/
theorem render_sublist (line : LogLine) (stamp : Text) :
    (line.render stamp).Sublist (line.entry stamp) ∧
      ∀ c ∈ line.render stamp, Text.isShown c = true :=
  ⟨Text.withoutControls_sublist _, fun _ => Text.isShown_of_mem_withoutControls⟩

end LogLine

namespace CommandLine

/-! ## What is shown -/

namespace Outcome

/-- The log lines that a filter shows. -/
def shown (outcome : Outcome) (filter : LogFilter) : List LogLine :=
  outcome.log.filter fun line => filter.admits line.level

variable {outcome : Outcome}

/-- What ended a run is printed after all log lines. -/
theorem stderr_eq (outcome : Outcome) (wording : Wording) (stamps : Nat → Text)
    (filter : LogFilter) :
    outcome.stderr wording stamps filter =
      LogLine.renderAll stamps (outcome.shown filter) ++ outcome.ending wording := by
  rw [stderr, ending]
  cases outcome.failure <;> rfl

/-- A stricter filter keeps of the lines that a looser one shows those that reach its level. -/
theorem shown_filter {strict loose : LogFilter} (h : strict.rank ≤ loose.rank) :
    (outcome.shown loose).filter (fun line => strict.admits line.level) =
      outcome.shown strict := by
  rw [shown, shown, List.filter_filter]
  refine List.filter_congr fun line _ => ?_
  cases hstrict : strict.admits line.level with
  | true => exact LogFilter.admits_mono h hstrict
  | false => rfl

/-- The loosest filter shows everything. -/
theorem shown_debug (outcome : Outcome) : outcome.shown (.upTo .debug) = outcome.log := by
  refine List.filter_eq_self.mpr fun line _ => ?_
  cases line.level <;> rfl

/-- Nothing is printed about the end of a run that succeeds. -/
theorem ending_of_exitCode_zero (wording : Wording) (h : outcome.exitCode = 0) :
    outcome.ending wording = [] := by
  rcases hfailure : outcome.failure with _ | failure
  · rw [ending, hfailure]
    rfl
  · rw [exitCode, hfailure] at h
    cases h

end Outcome

/-! ## What can be told from outside -/

/-- What can be told of a run from outside. -/
structure Observation where
  exitCode : Nat
  stdout : Bytes
  stderr : Text
  deriving DecidableEq, Repr

/-- What can be told from outside of the whole program with a filter, at given times. -/
def observe (wording : Wording) (files : TextFiles) (stdout : Stdout) (stamps : Nat → Text)
    (filter : LogFilter) (arguments : List Text) : Observation :=
  let outcome := execute wording files stdout arguments
  ⟨outcome.exitCode, outcome.stdout, outcome.stderr wording stamps filter⟩

section

variable {wording : Wording} {files : TextFiles} {stdout : Stdout} {arguments : List Text}

/-- Usable arguments lead to no complaint about them. -/
theorem failure_ne_usage (h : parse arguments ≠ none) {failure : Failure}
    (hfailure : (execute wording files stdout arguments).failure = some failure) :
    failure ≠ .usage := by
  rcases execute_cases wording files stdout arguments with
    ⟨hparse, -⟩ | ⟨invocation, -, houtcome⟩ | ⟨text, houtcome⟩
  · exact absurd hparse h
  · rw [houtcome] at hfailure
    rcases (run_of_failure hfailure).2 with ⟨_, -, rfl⟩ | ⟨_, rfl⟩ | ⟨_, -, rfl⟩ | ⟨_, rfl⟩ <;>
      exact Failure.noConfusion
  · rw [houtcome] at hfailure
    cases hfailure

/-- What is printed about the end of a run is nothing, or the failure after a heading. -/
theorem ending_cases (h : parse arguments ≠ none) :
    let outcome := execute wording files stdout arguments
    outcome.exitCode = 0 ∧ outcome.ending wording = [] ∨
      outcome.exitCode = 1 ∧
        ∃ cause, outcome.ending wording = "Error: ".toList ++ cause ++ ['\n'] := by
  intro outcome
  rcases hfailure : outcome.failure with _ | failure
  · have hexit : outcome.exitCode = 0 := by rw [Outcome.exitCode, hfailure]; rfl
    exact Or.inl ⟨hexit, Outcome.ending_of_exitCode_zero wording hexit⟩
  · have hexit : outcome.exitCode = 1 := by rw [Outcome.exitCode, hfailure]; rfl
    refine Or.inr ⟨hexit, failure.cause wording, ?_⟩
    rw [Outcome.ending, hfailure]
    exact Failure.report_of_ne_usage wording (failure_ne_usage h hfailure)

end

/-! ## Runs that succeed -/

/-- To write without a failure is to go through the whole scan. -/
theorem writeScan_of_result_ok {stdout : Stdout} {format : Format} {text : Text}
    {language : Language} {count : Nat}
    (h : (writeScan stdout format ((Document.ofText text).scan language)).result = .ok count) :
    count = (extractBlocks text language).length ∧
      (writeScan stdout format ((Document.ofText text).scan language)).records =
        (extract text language).2 := by
  -- the two states of standard output are sinks of different types
  have hall {τ : Type} [Sink τ] {sink : τ} (hresult : (writeBlocks format
      ((Document.ofText text).scan language) sink).result = .ok count) :
      count = (extractBlocks text language).length ∧
        (writeBlocks format ((Document.ofText text).scan language) sink).source.records =
          (extract text language).2 := by
    obtain ⟨hcount, hsource⟩ := writeFrom_of_result_ok hresult
    exact ⟨hcount.trans (Nat.zero_add _), congrArg Scanner.records hsource⟩
  cases stdout with
  | working => exact hall h
  | full buffer => exact hall h

section

variable {wording : Wording} {files : TextFiles} {arguments : List Text}
  {invocation : Invocation} {config : Config} {text : Text}

/-- The log of a run that scans a document and succeeds. -/
theorem StartsScan.log_of_exitCode_zero {stdout : Stdout}
    (h : StartsScan files arguments invocation config (Document.ofText text))
    (hexit : (CommandLine.execute wording files stdout arguments).exitCode = 0) :
    (CommandLine.execute wording files stdout arguments).log =
      [settingsNotice config, scanNotice invocation.file config.target] ++
        (extract text config.target).2.map remark ++
        [countNotice (extractBlocks text config.target).length invocation.file] := by
  rcases hresult : (writeScan stdout config.format
      ((Document.ofText text).scan config.target)).result with e | count
  · rw [h.execute_of_error hresult] at hexit
    cases hexit
  · obtain ⟨rfl, hrecords⟩ := writeScan_of_result_ok hresult
    rw [h.execute_of_ok hresult]
    simp only [hrecords]

end

/-- **Logging changes nothing but the log.** A log line without control characters is printed as its
stamp, its level, its target and its message; and of any other nothing is printed that is not in it.
Take any files, any state of standard output, arguments that are usable, two filters, and any times
at which lines are logged. The exit code and standard output are the same with both filters.
Standard error holds printed log lines and then, the same with both, nothing or the failure; and of
the log lines that are printed with the looser filter those are with the stricter one that reach its
level, in the same order. With all levels shown, a run that scans a document and exits with zero
prints the settings in force, the notice of the scan, the remarks that a complete scan of the
document makes, and the number of all blocks that are extracted from it, and nothing else. -/
theorem observe_at_levels (wording : Wording) (files : TextFiles) (stdout : Stdout)
    (arguments : List Text) (h : parse arguments ≠ none) :
    let outcome := execute wording files stdout arguments
    let print := fun (stamps : Nat → Text) (lines : List LogLine) =>
      (lines.mapIdx fun place line => line.render (stamps place)).flatten
    (∀ (line : LogLine) (stamp : Text),
      ((∀ c ∈ stamp ++ line.target ++ line.message, Text.isShown c = true) →
        line.render stamp =
          '[' :: stamp ++ line.level.name.rightpad 5 ' ' ++ ' ' :: line.target ++ "] ".toList ++
            "\n    ".toList.intercalate (line.message.splitOn '\n') ++ ['\n']) ∧
      (line.render stamp).Sublist (line.entry stamp) ∧
        ∀ c ∈ line.render stamp, Text.isShown c = true) ∧
    (∀ strict loose : LogFilter, strict.rank ≤ loose.rank → ∀ early late : Nat → Text,
      let quiet := observe wording files stdout early strict arguments
      let verbose := observe wording files stdout late loose arguments
      quiet.exitCode = verbose.exitCode ∧ quiet.stdout = verbose.stdout ∧
      ∃ ending,
        (quiet.exitCode = 0 ∧ ending = [] ∨
          quiet.exitCode = 1 ∧ ∃ cause, ending = "Error: ".toList ++ cause ++ ['\n']) ∧
        verbose.stderr = print late (outcome.shown loose) ++ ending ∧
        quiet.stderr =
          print early ((outcome.shown loose).filter fun line => strict.admits line.level) ++
            ending) ∧
    ∀ invocation config text,
      StartsScan files arguments invocation config (Document.ofText text) →
      outcome.exitCode = 0 →
      let shown := [settingsNotice config, scanNotice invocation.file config.target] ++
        (extract text config.target).2.map remark ++
        [countNotice (extractBlocks text config.target).length invocation.file]
      outcome.shown (.upTo .debug) = shown ∧
        ∀ stamps, (observe wording files stdout stamps (.upTo .debug) arguments).stderr =
          print stamps shown := by
  intro outcome print
  refine ⟨fun line stamp => ⟨LogLine.render_eq, LogLine.render_sublist line stamp⟩, ?_, ?_⟩
  · intro strict loose hrank early late quiet verbose
    refine ⟨rfl, rfl, outcome.ending wording, ending_cases h,
      outcome.stderr_eq wording late loose, ?_⟩
    rw [Outcome.shown_filter hrank]
    exact outcome.stderr_eq wording early strict
  · intro invocation config text hscan hexit shown
    have hshown : outcome.shown (.upTo .debug) = shown :=
      outcome.shown_debug.trans (hscan.log_of_exitCode_zero hexit)
    refine ⟨hshown, ?_⟩
    intro stamps
    have hstderr := outcome.stderr_eq wording stamps (.upTo .debug)
    rw [hshown, Outcome.ending_of_exitCode_zero wording hexit, List.append_nil] at hstderr
    exact hstderr

/-- A dropped block is remarked on before the first block is written; so the warning stands in front
of the failure of a full device, and among the debug lines of a run that succeeds. -/
theorem observe_at_levels_dropped :
    let text := "\x60\x60\x60c\n\x60\x60\x60c\n\x60\x60\x60\n\x60\x60\x60c\ny".toList
    let files := (FileTree.directory [(['d'], .file (Text.utf8 text))]).texts
    let arguments : List Text := ["--lang=c".toList, ['d']]
    let early : Nat → Text := fun _ => "2024-05-01T12:00:00Z ".toList
    let late : Nat → Text := fun _ => "2024-05-01T12:00:09Z ".toList
    let failed :=
      "Error: Failed to write block at line 4: No space left on device (os error 28)\n".toList
    parse arguments ≠ none ∧
    (observe sampleWording files (.full 2) early .standard arguments).stderr = failed ∧
    (observe sampleWording files (.full 2) late (.upTo .warn) arguments).stderr =
      "[2024-05-01T12:00:09Z WARN  extract_code_blocks::scanner] ".toList ++
        "Dropping c block starting at line 1: nested fence at line 2\n".toList ++ failed ∧
    StartsScan files arguments ⟨['d'], some ['c'], none, none⟩ ⟨['c'], [], .records⟩
      (Document.ofText text) ∧
    (execute sampleWording files .working arguments).exitCode = 0 ∧
    (observe sampleWording files .working late (.upTo .debug) arguments).stderr =
      "[2024-05-01T12:00:09Z DEBUG extract_code_blocks] Using configuration: ".toList ++
        "ExtractConfig \x7b language: \"c\", fence_markers: [], format: Records \x7d\n".toList ++
        "[2024-05-01T12:00:09Z DEBUG extract_code_blocks] Scanning d for c blocks\n".toList ++
        "[2024-05-01T12:00:09Z WARN  extract_code_blocks::scanner] ".toList ++
        "Dropping c block starting at line 1: nested fence at line 2\n".toList ++
        "[2024-05-01T12:00:09Z DEBUG extract_code_blocks::scanner] ".toList ++
        "Unclosed c block starting at line 4\n".toList ++
        "[2024-05-01T12:00:09Z DEBUG extract_code_blocks] ".toList ++
        "Extracted 1 block(s) from d\n".toList := by
  intro text files arguments early late failed
  have hparse : parse arguments ≠ none := by decide +kernel
  have hscan : StartsScan files arguments ⟨['d'], some ['c'], none, none⟩ ⟨['c'], [], .records⟩
      (Document.ofText text) :=
    ⟨by decide +kernel, by decide +kernel, by decide +kernel⟩
  have hexit : (execute sampleWording files .working arguments).exitCode = 0 := by decide +kernel
  have hfailed :
      (observe sampleWording files (.full 2) early .standard arguments).stderr = failed := by
    rw [show failed = _ from String.toList_ofList]
    decide +kernel
  let warning : LogLine := ⟨.warn, scanTarget,
    "Dropping c block starting at line 1: nested fence at line 2".toList⟩
  have hshown :
      (execute sampleWording files (.full 2) arguments).shown (.upTo .warn) = [warning] := by
    decide +kernel
  obtain ⟨hlines, hlevels, -⟩ := observe_at_levels sampleWording files (.full 2) arguments hparse
  obtain ⟨-, -, hruns⟩ := observe_at_levels sampleWording files .working arguments hparse
  refine ⟨hparse, hfailed, ?_, hscan, hexit, ?_⟩
  · obtain ⟨-, -, ending, -, hverbose, hquiet⟩ :=
      hlevels .standard (.upTo .warn) (by decide) early late
    rw [hshown] at hverbose hquiet
    -- without a line before it, what is shown is the end, and with the warning it is the same
    have hending : failed = ending := hfailed.symm.trans hquiet
    have hline := (hlines warning (late 0)).1 (List.all_eq_true.mp (by decide +kernel))
    rw [hverbose, ← hending]
    refine congrArg (· ++ failed) ?_
    simp only [List.mapIdx_cons, List.mapIdx_nil, List.flatten_cons, List.flatten_nil,
      List.append_nil]
    rw [hline]
    repeat rw [String.toList_ofList]
    decide +kernel
  · obtain ⟨-, hstderr⟩ := hruns _ _ text hscan hexit
    rw [hstderr late]
    -- literals are taken apart here, as their evaluation would be slow
    repeat rw [String.toList_ofList]
    decide +kernel

end CommandLine

end FencedCode
