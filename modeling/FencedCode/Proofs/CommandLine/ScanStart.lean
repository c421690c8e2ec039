import FencedCode.Proofs.CommandLine.Refinement
import FencedCode.Proofs.Config.Validity

/-!
# Runs that reach the scan

A run reaches the scan when its arguments ask for one, the settings are accepted and the document
can be read (`StartsScan`). It says so in its log, and no other run does
(`scanNotice_mem_log_iff`). By then the configuration may differ from the one that was accepted when
its file was read, as the language and the format can be given anew; it is valid all the same
(`validate_of_settings`), so the scan is one in which no fence is taken for another.
-/
namespace FencedCode.CommandLine

section

variable {files : TextFiles} {invocation : Invocation} {base config : Config}

/-! ## Settings -/

/-- Without options the configuration is valid: it is the standard one or comes from a file. -/
theorem validate_of_baseConfig (h : baseConfig files invocation.config = .ok base) :
    base.validate = .ok () := by
  rcases hpath : invocation.config with _ | path
  · rw [hpath] at h
    rw [← Except.ok.inj h]
    exact Config.validate_standard
  · rw [hpath] at h
    exact Config.validate_of_load h

/-- It stays valid when a language that passes the check takes the place of its own; the format does
not matter. -/
theorem validate_withOptions (hbase : base.validate = .ok ())
    (hcheck : checkOptions base invocation = .ok ()) :
    (withOptions base invocation).validate = .ok () := by
  rw [checkOptions] at hcheck
  split at hcheck
  · exact hcheck
  · rename_i hlanguage
    have hnone : invocation.language = none := Option.not_isSome_iff_eq_none.mp hlanguage
    have hsame : (withOptions base invocation).invalidTag? = base.invalidTag? := by
      rw [withOptions, hnone]
      rfl
    rw [Config.validate, hsame]
    exact hbase

/-- The settings in force are those of an accepted base with options that pass the check. -/
theorem settings_eq_ok_iff :
    settings files invocation = .ok config ↔
      ∃ base, baseConfig files invocation.config = .ok base ∧
        checkOptions base invocation = .ok () ∧ config = withOptions base invocation := by
  constructor
  · intro h
    rw [settings_eq] at h
    rcases hbase : baseConfig files invocation.config with fault | base
    · simp only [hbase] at h
      cases h
    rcases hcheck : checkOptions base invocation with tag | ⟨⟩
    · simp only [hbase, hcheck] at h
      cases h
    simp only [hbase, hcheck] at h
    exact ⟨base, rfl, hcheck, (Except.ok.inj h).symm⟩
  · rintro ⟨base, hbase, hcheck, rfl⟩
    exact settings_of_ok hbase hcheck

/-- The settings in force are valid. -/
theorem validate_of_settings (h : settings files invocation = .ok config) :
    config.validate = .ok () := by
  obtain ⟨base, hbase, hcheck, rfl⟩ := settings_eq_ok_iff.mp h
  exact validate_withOptions (validate_of_baseConfig hbase) hcheck

end

/-! ## The start of the scan -/

/-- The program, given these arguments, scans a document in a configuration. -/
structure StartsScan (files : TextFiles) (arguments : List Text) (invocation : Invocation)
    (config : Config) (document : Document) : Prop where
  parsed : parse arguments = some (.run invocation)
  settings : settings files invocation = .ok config
  document : Document.read files invocation.file = .ok document

section

variable {wording : Wording} {files : TextFiles} {arguments : List Text} {invocation : Invocation}
  {config : Config} {document : Document}

/-- What a run comes to that writes all blocks of the scan. -/
theorem StartsScan.execute_of_ok (h : StartsScan files arguments invocation config document)
    {stdout : Stdout} {count : Nat}
    (hresult : (writeScan stdout config.format (document.scan config.target)).result = .ok count) :
    let written := writeScan stdout config.format (document.scan config.target)
    execute wording files stdout arguments =
      ⟨written.stdout,
        [settingsNotice config, scanNotice invocation.file config.target] ++
          written.records.map remark ++ [countNotice count invocation.file],
        none⟩ := by
  rw [execute_of_parse wording files stdout h.parsed]
  simp only [run, h.settings, h.document, hresult]

/-- What a run comes to that cannot write one of them. -/
theorem StartsScan.execute_of_error (h : StartsScan files arguments invocation config document)
    {stdout : Stdout} {e : WriteError}
    (hresult : (writeScan stdout config.format (document.scan config.target)).result = .error e) :
    let written := writeScan stdout config.format (document.scan config.target)
    execute wording files stdout arguments =
      ⟨written.stdout,
        [settingsNotice config, scanNotice invocation.file config.target] ++
          written.records.map remark,
        some (.output e)⟩ := by
  rw [execute_of_parse wording files stdout h.parsed]
  simp only [run, h.settings, h.document, hresult]

/-- What a run that scans writes, and how its log begins. -/
theorem StartsScan.execute (h : StartsScan files arguments invocation config document)
    (stdout : Stdout) :
    let written := writeScan stdout config.format (document.scan config.target)
    let outcome := execute wording files stdout arguments
    outcome.stdout = written.stdout ∧
      [settingsNotice config, scanNotice invocation.file config.target] ++
        written.records.map remark <+: outcome.log := by
  intro written outcome
  rcases hresult : written.result with e | count
  · have houtcome : outcome = _ := h.execute_of_error hresult
    rw [houtcome]
    exact ⟨rfl, List.prefix_refl _⟩
  · have houtcome : outcome = _ := h.execute_of_ok hresult
    rw [houtcome]
    exact ⟨rfl, List.prefix_append _ _⟩

/-- The notices of a run can be told apart by how they begin. -/
theorem scanNotice_ne_settingsNotice (file : Text) (language : Language) :
    scanNotice file language ≠ settingsNotice config := by
  intro h
  have hfirst : some 'S' = some 'U' := congrArg (fun line : LogLine => line.message.head?) h
  exact absurd hfirst (by decide)

/-- The account of unusable arguments begins otherwise than the notice of a scan, whatever it is. -/
theorem scanNotice_ne_usageNotice (file : Text) (language : Language) :
    scanNotice file language ≠ usageNotice wording arguments := by
  intro h
  have hfirst : some 'S' = some 'e' := congrArg (fun line : LogLine => line.message.head?) h
  exact absurd hfirst (by decide)

/-- The log says that a scan begins exactly if one does. -/
theorem scanNotice_mem_log_iff (stdout : Stdout) :
    (∃ file language, scanNotice file language ∈ (execute wording files stdout arguments).log) ↔
      ∃ invocation config document, StartsScan files arguments invocation config document := by
  constructor
  · rintro ⟨file, language, hlog⟩
    rcases execute_cases wording files stdout arguments with
      ⟨-, houtcome⟩ | ⟨invocation, hparse, houtcome⟩ | ⟨_, houtcome⟩ <;> rw [houtcome] at hlog
    · exact absurd (List.mem_singleton.mp hlog) (scanNotice_ne_usageNotice file language)
    · -- the settings are put together first, and then the file is read
      rcases hsettings : settings files invocation with failure | config
      · simp only [run, hsettings] at hlog
        cases hlog
      rcases hdocument : Document.read files invocation.file with fault | document
      · simp only [run, hsettings, hdocument] at hlog
        exact absurd (List.mem_singleton.mp hlog) (scanNotice_ne_settingsNotice file language)
      exact ⟨invocation, config, document, hparse, hsettings, hdocument⟩
    · cases hlog
  · rintro ⟨invocation, config, document, h⟩
    refine ⟨invocation.file, config.target, (h.execute stdout).2.subset ?_⟩
    exact List.mem_cons_of_mem _ List.mem_cons_self

/-- **Only valid configurations reach the scan.** A text or a file that is accepted as a
configuration is valid. Whatever the arguments, the files and standard output, a run logs that a
scan begins exactly if it begins one. The configuration that it has logged before, and that the scan
is made with, is valid then, so no fence is taken for another: neither a bare fence nor one with
more than three backticks opens a block, and outside all blocks a bare fence does nothing. -/
theorem validate_of_startsScan :
    (∀ text config, Config.parse text = .ok config → config.validate = .ok ()) ∧
      (∀ files path config, Config.load files path = .ok config → config.validate = .ok ()) ∧
      ∀ wording files stdout arguments,
        let outcome := execute wording files stdout arguments
        ((∃ file language, scanNotice file language ∈ outcome.log) ↔
          ∃ invocation config document, StartsScan files arguments invocation config document) ∧
        ∀ invocation config document, StartsScan files arguments invocation config document →
          let written := writeScan stdout config.format (document.scan config.target)
          outcome.stdout = written.stdout ∧
            [settingsNotice config, scanNotice invocation.file config.target] ++
              written.records.map remark <+: outcome.log ∧
            config.validate = .ok () ∧ Scan.Unambiguous config.target document.lines := by
  refine ⟨fun _ _ => Config.validate_of_parse, fun _ _ _ => Config.validate_of_load, ?_⟩
  intro wording files stdout arguments outcome
  refine ⟨scanNotice_mem_log_iff stdout, ?_⟩
  intro invocation config document h written
  obtain ⟨hstdout, hlog⟩ := h.execute stdout
  have hvalid := validate_of_settings h.settings
  exact ⟨hstdout, hlog, hvalid, Scan.unambiguous_target hvalid document.lines⟩

end

/-- A block between stray fences. -/
def strayLines : List Text :=
  [fence, fence ++ "\x60rs".toList, fence ++ ['R', 'S'], ['a'], fence, fence]

/-- A configuration `c` with a marker, and a document `d` of these lines. -/
def strayTree : FileTree :=
  .directory
    [(['c'], .file (Text.utf8 "language = \"c\"\nfence_markers = [\"rs\"]\n".toList)),
      (['d'], .file (Text.utf8 (['\n'].intercalate strayLines)))]

/-- With the language given anew and the markers of a file, the stray fences open no block. -/
theorem validate_of_startsScan_stray :
    let arguments := ["--config".toList, ['c'], "--lang=rust".toList, ['d']]
    let base : Config := ⟨['c'], [['r', 's']], .records⟩
    let config : Config := ⟨"rust".toList, [['r', 's']], .records⟩
    Config.standard.validate = .ok () ∧ base.validate = .ok () ∧
      (execute sampleWording strayTree.texts .working arguments).stdout =
        Text.utf8 "3\t\ta\x00".toList ∧
      config.validate = .ok () ∧ Scan.Unambiguous config.target strayLines := by
  intro arguments base config
  have hparse : Config.parse [] = .ok .standard := by decide +kernel
  have hload : Config.load strayTree.texts ['c'] = .ok base := by decide +kernel
  have hparsed : parse arguments = some (.run ⟨['d'], some "rust".toList, none, some ['c']⟩) := by
    decide +kernel
  have hsettings :
      settings strayTree.texts ⟨['d'], some "rust".toList, none, some ['c']⟩ = .ok config := by
    decide +kernel
  have hdocument :
      Document.read strayTree.texts ['d'] = .ok ⟨['\n'].intercalate strayLines⟩ := by
    decide +kernel
  have hlines : Document.lines ⟨['\n'].intercalate strayLines⟩ = strayLines := by
    decide +kernel
  -- what is written is computed from the scan, without the run around it
  have hwritten : (writeScan .working config.format
      (Document.scan ⟨['\n'].intercalate strayLines⟩ config.target)).stdout =
        Text.utf8 "3\t\ta\x00".toList := by
    decide +kernel
  obtain ⟨htexts, hfiles, hruns⟩ := validate_of_startsScan
  obtain ⟨hstdout, -, hvalid, hunambiguous⟩ :=
    (hruns sampleWording strayTree.texts .working arguments).2 _ config _
      ⟨hparsed, hsettings, hdocument⟩
  rw [hlines] at hunambiguous
  exact ⟨htexts _ _ hparse, hfiles _ _ _ hload, hstdout.trans hwritten, hvalid, hunambiguous⟩

end FencedCode.CommandLine
