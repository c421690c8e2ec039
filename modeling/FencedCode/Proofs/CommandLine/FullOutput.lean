import FencedCode.Proofs.CommandLine.Logging
import FencedCode.Proofs.Output.FullDevice

/-!
# Runs on a full device

A run whose standard output is a full device succeeds exactly if there is nothing to write
(`execute_on_full_device`). Otherwise it ends with the first block, and the report on standard error
names the line on which that block starts. How much of the block the line buffer in front of the
device can hold decides only at which stage the report says that it was refused.
-/
namespace FencedCode.CommandLine

/-- The report on a block that a device without space refuses. -/
theorem report_noSpace (wording : Wording) (line : Nat) (stage : Stage) :
    Failure.report wording (.output ⟨line, stage, .noSpace⟩) =
      "Error: Failed to write block at line ".toList ++ Text.ofNat line ++ ": ".toList ++
        (stage.context ++ "No space left on device (os error 28)\n".toList) := by
  have hreport : Failure.report wording (.output ⟨line, stage, .noSpace⟩) =
      "Error: ".toList ++ (WriteError.mk line stage .noSpace).message ++ ['\n'] := rfl
  have hheading : "Error: ".toList ++ "Failed to write block at line ".toList =
      "Error: Failed to write block at line ".toList := by decide +kernel
  have hcause : SinkFault.noSpace.message ++ ['\n'] =
      "No space left on device (os error 28)\n".toList := by decide +kernel
  rw [hreport, WriteError.message_eq, ← hheading, ← hcause]
  simp only [List.append_assoc]

/-- The report on a block that is refused is one line. -/
theorem isLine_report_output (wording : Wording) (e : WriteError) :
    (Failure.report wording (.output e)).IsLine := by
  rw [Failure.isLine_report_iff wording fun reason hreason => by cases hreason]
  refine ⟨rfl, ?_, ?_⟩
  · intro text htext
    cases htext
  · intro path hpath
    cases hpath

section

variable {wording : Wording} {files : TextFiles} {arguments : List Text}
  {invocation : Invocation} {config : Config} {text : Text}

/-- A run that finds no block has nothing to write. -/
theorem StartsScan.execute_full_of_none {document : Document} {rest : Scanner} (buffer : Nat)
    (h : StartsScan files arguments invocation config document)
    (hnext : BlockSource.next (document.scan config.target) = (none, rest)) :
    CommandLine.execute wording files (.full buffer) arguments =
      ⟨[],
        [settingsNotice config, scanNotice invocation.file config.target] ++
          rest.records.map remark ++ [countNotice 0 invocation.file],
        none⟩ := by
  have hreport := writeBlocks_full_of_none config.format buffer hnext
  have hwritten : writeScan (.full buffer) config.format (document.scan config.target) =
      ⟨.ok 0, [], rest.records⟩ := by
    rw [writeScan, hreport]
  rw [h.execute_of_ok (congrArg Written.result hwritten), hwritten]

/-- A run that finds a block does not get past it. -/
theorem StartsScan.execute_full_of_some {document : Document} {first : Block} {rest : Scanner}
    (buffer : Nat) (h : StartsScan files arguments invocation config document)
    (hnext : BlockSource.next (document.scan config.target) = (some first, rest)) :
    CommandLine.execute wording files (.full buffer) arguments =
      ⟨[],
        [settingsNotice config, scanNotice invocation.file config.target] ++
          rest.records.map remark,
        some (.output
          ⟨first.startLine, stageRefused buffer first config.format, .noSpace⟩)⟩ := by
  obtain ⟨after, hreport⟩ := writeBlocks_full_of_some config.format buffer hnext
  have hwritten : writeScan (.full buffer) config.format (document.scan config.target) =
      ⟨.error ⟨first.startLine, stageRefused buffer first config.format, .noSpace⟩, [],
        rest.records⟩ := by
    rw [writeScan, hreport]
  rw [h.execute_of_error (congrArg Written.result hwritten), hwritten]

/-- **A full device is never taken for a working one.** With standard output on a device that
refuses every byte, behind a line buffer of any size, a run that scans a document in valid settings
exits with zero exactly if the document has no block of their language. Otherwise it exits with one:
it has asked the scan for one block and no more, and standard error is one line that names the line
on which this block starts, and then the stage in which it was refused and the cause. -/
theorem execute_on_full_device (wording : Wording) (buffer : Nat)
    (h : StartsScan files arguments invocation config (Document.ofText text)) :
    let outcome := execute wording files (.full buffer) arguments
    let blocks := extractBlocks text config.target
    let scanner := (Document.ofText text).scan config.target
    let report := writeBlocks config.format scanner (FullDevice.empty buffer)
    config.validate = .ok () ∧
    (outcome.exitCode = 0 ↔ blocks = []) ∧
    (blocks = [] → outcome.stdout = [] ∧
      (∀ stamps, outcome.stderr wording stamps .standard = []) ∧ report.drawn = 0) ∧
    ∀ first, blocks.head? = some first →
      outcome.exitCode = 1 ∧ outcome.stdout = [] ∧
      (report.drawn = 1 ∧ report.source = scanner.next.2 ∧
        outcome.log = [settingsNotice config, scanNotice invocation.file config.target] ++
          scanner.next.2.records.map remark) ∧
      ∀ stamps,
        outcome.stderr wording stamps .standard =
          "Error: Failed to write block at line ".toList ++ Text.ofNat first.startLine ++
            ": ".toList ++ ((stageRefused buffer first config.format).context ++
              "No space left on device (os error 28)\n".toList) ∧
        (outcome.stderr wording stamps .standard).IsLine := by
  intro outcome blocks scanner report
  refine ⟨validate_of_settings h.settings, ?_⟩
  have hstderr (stamps : Nat → Text) :
      outcome.stderr wording stamps .standard = outcome.ending wording :=
    stderr_execute_standard wording files (.full buffer) arguments stamps
  have hblocks : blocks = (BlockSource.drain scanner).1 := rfl
  rcases hnext : BlockSource.next scanner with ⟨_ | first, rest⟩
  · -- the scan gives nothing
    have hreport : report = _ := writeBlocks_full_of_none config.format buffer hnext
    have houtcome : outcome = _ := h.execute_full_of_none buffer hnext
    simp only [hstderr]
    rw [hblocks, BlockSource.drain_of_next_none hnext, hreport, houtcome]
    refine ⟨iff_of_true rfl rfl, fun _ => ⟨rfl, fun _ => rfl, rfl⟩, ?_⟩
    intro first hfirst
    cases hfirst
  · -- its first block is refused
    obtain ⟨after, hwrite⟩ := writeBlocks_full_of_some config.format buffer hnext
    have hreport : report = _ := hwrite
    have houtcome : outcome = _ := h.execute_full_of_some buffer hnext
    have hrest : scanner.next.2 = rest := congrArg Prod.snd hnext
    simp only [hstderr]
    rw [hblocks, BlockSource.drain_of_next_some hnext, hreport, houtcome, hrest]
    refine ⟨iff_of_false Nat.one_ne_zero (List.cons_ne_nil _ _), ?_, ?_⟩
    · intro hempty
      cases hempty
    · intro block hblock
      obtain rfl := Option.some.inj hblock
      exact ⟨rfl, rfl, ⟨rfl, rfl, rfl⟩,
        fun _ => ⟨report_noSpace wording _ _, isLine_report_output wording _⟩⟩

end

/-- A record of six bytes is refused by a buffer of five bytes and, behind one of six, by the flush;
without a block the device is not asked. -/
theorem execute_on_full_device_six :
    let text := "\x60\x60\x60Sh,x\na\r\n\x60\x60\x60\n\x60\x60\x60py\nb".toList
    let shell : List Text := ["--lang=sh".toList, ['d']]
    let other : List Text := ["--lang=go".toList, ['d']]
    StartsScan sampleTree.texts shell ⟨['d'], some "sh".toList, none, none⟩
        ⟨"sh".toList, [], .records⟩ (Document.ofText text) ∧
      (∀ stamps, (execute sampleWording sampleTree.texts (.full 5) shell).stderr sampleWording
        stamps .standard = "Error: Failed to write block at line 1: ".toList ++
          "No space left on device (os error 28)\n".toList) ∧
      (∀ stamps, (execute sampleWording sampleTree.texts (.full 6) shell).stderr sampleWording
        stamps .standard =
          "Error: Failed to write block at line 1: Failed to write output: ".toList ++
            "No space left on device (os error 28)\n".toList) ∧
    StartsScan sampleTree.texts other ⟨['d'], some "go".toList, none, none⟩
        ⟨"go".toList, [], .records⟩ (Document.ofText text) ∧
      (execute sampleWording sampleTree.texts (.full 5) other).exitCode = 0 := by
  intro text shell other
  have hshell : StartsScan sampleTree.texts shell ⟨['d'], some "sh".toList, none, none⟩
      ⟨"sh".toList, [], .records⟩ (Document.ofText text) :=
    ⟨by decide +kernel, by decide +kernel, by decide +kernel⟩
  have hother : StartsScan sampleTree.texts other ⟨['d'], some "go".toList, none, none⟩
      ⟨"go".toList, [], .records⟩ (Document.ofText text) :=
    ⟨by decide +kernel, by decide +kernel, by decide +kernel⟩
  have hfirst : (extractBlocks text (Config.target ⟨"sh".toList, [], .records⟩)).head? =
      some ⟨1, ['x'], ['a']⟩ := by
    decide +kernel
  have hnone : extractBlocks text (Config.target ⟨"go".toList, [], .records⟩) = [] := by
    decide +kernel
  obtain ⟨-, -, -, hsmall⟩ := execute_on_full_device sampleWording 5 hshell
  obtain ⟨-, -, -, hlarge⟩ := execute_on_full_device sampleWording 6 hshell
  obtain ⟨-, hexit, -, -⟩ := execute_on_full_device sampleWording 5 hother
  obtain ⟨-, -, -, hrecord⟩ := hsmall _ hfirst
  obtain ⟨-, -, -, hflush⟩ := hlarge _ hfirst
  refine ⟨hshell, fun stamps => (hrecord stamps).1.trans ?_,
    fun stamps => (hflush stamps).1.trans ?_, hother, hexit.mpr hnone⟩
  · decide +kernel
  · decide +kernel

end FencedCode.CommandLine
