import FencedCode.Proofs.CommandLine.Refinement
import FencedCode.Proofs.Text.Written

/-!
# What a failed run reports

A run that fails has written nothing on a working standard output and reports its failure
(`report_of_exitCode_one`). The report is one line unless it points into a configuration text, which
it then shows with marks below it (`reports_not_one_line`), passes on an account that goes over
several lines, or shows a path that holds a newline; and each path that is shown is one of the
arguments, or what one of them has after an equals sign.
-/
namespace FencedCode

/-! ## Texts on one line -/

namespace Text

/-- A text is one line: it holds one newline, at its end. -/
def IsLine (t : Text) : Prop :=
  t.count '\n' = 1 ∧ t.getLast? = some '\n'

instance (t : Text) : Decidable t.IsLine :=
  inferInstanceAs (Decidable (_ ∧ _))

/-- A text with a newline after it is one line exactly if it holds none. -/
theorem isLine_concat_iff {t : Text} : IsLine (t ++ ['\n']) ↔ '\n' ∉ t := by
  rw [IsLine, List.count_append, List.count_singleton_self, List.getLast?_concat,
    and_iff_left rfl, Nat.add_eq_right, List.count_eq_zero]

/-- The digits of a number are those of numbers below the base. -/
theorem exists_of_mem_toDigits {b n : Nat} (hb : 1 < b) {c : Char} (h : c ∈ Nat.toDigits b n) :
    ∃ d < b, c = d.digitChar := by
  induction n using Nat.strongRecOn with
  | ind n ih =>
    rw [Nat.toDigits_eq_if hb] at h
    split at h
    · rename_i hlt
      exact ⟨n, hlt, List.mem_singleton.mp h⟩
    · rcases List.mem_append.mp h with h | h
      · exact ih (n / b) (Nat.div_lt_self (by omega) hb) h
      · exact ⟨n % b, Nat.mod_lt n (by omega), List.mem_singleton.mp h⟩

/-- No digit up to base sixteen is a newline. -/
theorem digitChar_ne_newline {d : Nat} (h : d < 16) : d.digitChar ≠ '\n' := by
  decide +revert

/-- A newline is quoted by its escape, and nothing else is quoted with one. -/
theorem newline_not_mem_quoteChar (c : Char) : '\n' ∉ quoteChar c := by
  by_cases hc : c = '\n'
  · rw [hc]
    decide
  · unfold quoteChar
    split
    -- the named escapes are closed texts; what is left is a number, or the character itself
    all_goals try decide
    split
    · intro h
      rcases List.mem_append.mp h with h | h
      · rcases List.mem_append.mp h with h | h
        · exact absurd h (by decide)
        · obtain ⟨d, hd, hdigit⟩ := exists_of_mem_toDigits (by decide) h
          exact digitChar_ne_newline hd hdigit.symm
      · exact absurd h (by decide)
    · intro h
      exact hc (List.mem_singleton.mp h).symm

/-- So a quoted text is on one line, whatever it holds. -/
theorem newline_not_mem_quoted (t : Text) : '\n' ∉ quoted t := by
  intro h
  rw [quoted, List.cons_append, List.mem_cons, List.mem_append, List.mem_flatMap] at h
  rcases h with h | ⟨c, -, h⟩ | h
  · exact absurd h (by decide)
  · exact newline_not_mem_quoteChar c h
  · exact absurd h (by decide)

end Text

open Text

/-! ## Causes on one line -/

/-- A tag at fault is quoted in its message. -/
theorem newline_not_mem_message_invalidTag (tag : InvalidTag) : '\n' ∉ tag.message := by
  obtain ⟨role, tag, flaw⟩ := tag
  have hrole : '\n' ∉ role.message ++ ": ".toList := by
    cases role <;> decide
  have hflaw : '\n' ∉ flaw.message tag := by
    cases flaw with
    | empty =>
      show '\n' ∉ "fence tag cannot be empty".toList
      decide
    | forbidden => exact List.not_mem_append (by decide) (newline_not_mem_quoted tag)
    | blank => exact List.not_mem_append (by decide) (newline_not_mem_quoted tag)
  exact List.not_mem_append hrole hflaw

/-- A message that points into a text takes several lines. -/
theorem newline_mem_render (heading : Text) (pointer : Pointer) :
    '\n' ∈ pointer.render heading :=
  List.mem_append_right _ (List.mem_singleton_self '\n')

/-! ## Faults of files -/

/-- The words for a fault of a file are on one line, those of an unknown one apart. -/
theorem newline_not_mem_message_readFault {fault : ReadFault}
    (h : ∀ reason, fault ≠ .refused reason) : '\n' ∉ fault.message := by
  cases fault with
  | refused reason => exact absurd rfl (h reason)
  | _ => decide

namespace FileTree

variable (reason : Text)

/-- Why a path that leaves the tree cannot be read is known. -/
theorem walkOutside_ne_refused (names : List Text) :
    walkOutside names ≠ .error (.refused reason) := by
  induction names with
  | nil => nofun
  | cons name names ih =>
    rw [walkOutside]
    split
    · exact ih
    · split <;> nofun

/-- Why a path within the tree cannot be read is known, by induction on the names in it. -/
theorem walk_ne_refused (above : List FileTree) (tree : FileTree) (names : List Text) :
    walk above tree names ≠ .error (.refused reason) := by
  fun_induction walk above tree names with
  | case1 | case2 | case3 => nofun
  -- a component that stays, one that leads out of the tree, and one that leads up in it
  | case4 _ _ _ _ _ ih => exact ih
  | case5 => exact walkOutside_ne_refused reason _
  | case6 _ _ _ _ _ _ _ ih => exact ih
  -- a name
  | case8 _ _ _ _ _ _ _ _ _ ih => exact ih
  | case7 | case9 => nofun

/-- Reading in a tree does not fail in words that only a system has. -/
theorem texts_ne_refused (tree : FileTree) (path : Text) :
    tree.texts path ≠ .error (.refused reason) := by
  have hread : tree.read path ≠ .error (.refused reason) := by
    -- what is checked before the walk has faults of its own
    rw [read]
    split
    · nofun
    · split
      · nofun
      · split
        · nofun
        · split
          · exact walkOutside_ne_refused reason _
          · exact walk_ne_refused reason _ _ _
  rw [texts]
  cases htree : tree.read path with
  | error fault =>
    intro h
    rw [htree, Except.error.inj h] at hread
    exact hread rfl
  | ok bytes =>
    change decodeFile bytes ≠ .error (.refused reason)
    rw [decodeFile]
    split <;> nofun

end FileTree

namespace CommandLine

/-! ## Paths from arguments -/

/-- What has been given so far names files only by texts that satisfy `P`. -/
structure Given.PathsSatisfy (P : Text → Prop) (given : Given) : Prop where
  file : ∀ path, given.file = some path → P path
  config : ∀ path, given.config = some path → P path

section

variable {P : Text → Prop} {given changed : Given} {invocation : Invocation}

theorem Given.pathsSatisfy_nothing (P : Text → Prop) : nothing.PathsSatisfy P :=
  ⟨nofun, nofun⟩

/-- A file that is given keeps what is known of the paths. -/
theorem Given.PathsSatisfy.setFile {path : Text} (h : given.PathsSatisfy P) (hpath : P path)
    (hset : given.setFile path = some changed) : changed.PathsSatisfy P := by
  rw [Given.setFile] at hset
  split at hset
  · cases hset
  · obtain rfl := Option.some.inj hset
    refine ⟨?_, h.config⟩
    intro other hother
    obtain rfl := Option.some.inj hother
    exact hpath

/-- So does an option, whose value may be a path. -/
theorem Given.PathsSatisfy.setOption {name : OptionName} {value : Text} (h : given.PathsSatisfy P)
    (hvalue : P value) (hset : given.setOption name value = some changed) :
    changed.PathsSatisfy P := by
  cases name with
  | language =>
    simp only [Given.setOption] at hset
    split at hset
    · cases hset
    · obtain rfl := Option.some.inj hset
      exact ⟨h.file, h.config⟩
  | format =>
    simp only [Given.setOption] at hset
    split at hset
    · cases hset
    · obtain ⟨format, -, rfl⟩ := Option.map_eq_some_iff.mp hset
      exact ⟨h.file, h.config⟩
  | config =>
    simp only [Given.setOption] at hset
    split at hset
    · cases hset
    · obtain rfl := Option.some.inj hset
      refine ⟨h.file, ?_⟩
      intro other hother
      obtain rfl := Option.some.inj hother
      exact hvalue

/-- What is known of the paths given is known of those of the run. -/
theorem Given.PathsSatisfy.of_run (h : given.PathsSatisfy P)
    (hrun : given.invocation?.map Request.run = some (.run invocation)) :
    P invocation.file ∧ ∀ path, invocation.config = some path → P path := by
  obtain ⟨invocation', hinvocation, heq⟩ := Option.map_eq_some_iff.mp hrun
  obtain rfl := Request.run.inj heq
  obtain ⟨file, hfile, rfl⟩ := Option.map_eq_some_iff.mp hinvocation
  exact ⟨h.file file hfile, h.config⟩

/-- The value of an option is the end of its argument. -/
theorem splitOption_suffix {argument name value : Text}
    (h : splitOption argument = (name, some value)) : value <:+ argument := by
  rw [splitOption] at h
  cases hrest : (argument.drop 2).dropWhile (· != '=') with
  | nil =>
    rw [hrest] at h
    cases h
  | cons c rest =>
    rw [hrest] at h
    obtain ⟨-, hvalue⟩ := Prod.mk.inj h
    obtain rfl := Option.some.inj hvalue
    have hcons : c :: rest <:+ argument.drop 2 := hrest ▸ List.dropWhile_suffix _
    exact (List.suffix_cons c rest).trans (hcons.trans (List.drop_suffix 2 argument))

/-- After two hyphens the arguments themselves are paths. -/
theorem parseFiles_paths {arguments : List Text} (h : given.PathsSatisfy P)
    (harguments : ∀ argument ∈ arguments, P argument)
    (hparse : parseFiles arguments given = some (.run invocation)) :
    P invocation.file ∧ ∀ path, invocation.config = some path → P path := by
  induction arguments generalizing given with
  | nil => exact h.of_run hparse
  | cons path arguments ih =>
    obtain ⟨hpath, hrest⟩ := List.forall_mem_cons.mp harguments
    obtain ⟨changed, hset, hparse⟩ := Option.bind_eq_some_iff.mp hparse
    exact ih (h.setFile hpath hset) hrest hparse

/-- A request for help or the version is no run. -/
theorem ofFlag?_ne_run {name : Text} {invocation : Invocation} :
    Request.ofFlag? name ≠ some (.run invocation) := by
  rw [Request.ofFlag?, List.lookup_cons, List.lookup_cons]
  split
  · nofun
  · split <;> nofun

/-- One-letter options ask for no run. -/
theorem ofLetters?_ne_run {letters : Text} {invocation : Invocation} :
    Request.ofLetters? letters ≠ some (.run invocation) := by
  rw [Request.ofLetters?.eq_def]
  split <;> nofun

/-- The paths that arguments name are among them, or follow an equals sign in one of them. By
induction on the number of arguments, as an option may take the next one. -/
theorem parseFrom_paths {arguments : List Text} (hsuffix : ∀ s t : Text, s <:+ t → P t → P s)
    (h : given.PathsSatisfy P) (harguments : ∀ argument ∈ arguments, P argument)
    (hparse : parseFrom arguments given = some (.run invocation)) :
    P invocation.file ∧ ∀ path, invocation.config = some path → P path := by
  induction hlength : arguments.length using Nat.strongRecOn generalizing arguments given with
  | ind n ih =>
    cases arguments with
    | nil =>
      rw [parseFrom] at hparse
      exact h.of_run hparse
    | cons argument arguments =>
      obtain ⟨hargument, hrest⟩ := List.forall_mem_cons.mp harguments
      rw [List.length_cons] at hlength
      rw [parseFrom] at hparse
      split at hparse
      · -- nothing but files follows
        exact parseFiles_paths h hrest hparse
      split at hparse
      · -- a file
        obtain ⟨changed, hset, hparse⟩ := Option.bind_eq_some_iff.mp hparse
        exact ih arguments.length (by omega) (h.setFile hargument hset) hrest hparse rfl
      split at hparse
      · -- one-letter options
        cases ofLetters?_ne_run hparse
      split at hparse
      · -- an option with its value in the same argument
        rename_i name value hsplit
        obtain ⟨option, -, hparse⟩ := Option.bind_eq_some_iff.mp hparse
        obtain ⟨changed, hset, hparse⟩ := Option.bind_eq_some_iff.mp hparse
        have hvalue := hsuffix value argument (splitOption_suffix hsplit) hargument
        exact ih arguments.length (by omega) (h.setOption hvalue hset) hrest hparse rfl
      split at hparse
      · -- a flag
        rename_i hflag
        obtain rfl := Option.some.inj hparse
        cases ofFlag?_ne_run hflag
      · -- an option with its value in the next argument
        split at hparse
        · obtain ⟨changed, hset, hparse⟩ := Option.bind_eq_some_iff.mp hparse
          obtain ⟨hvalue, hrest⟩ := List.forall_mem_cons.mp hrest
          rw [List.length_cons] at hlength
          exact ih _ (by omega) (h.setOption hvalue hset) hrest hparse rfl
        · cases hparse
      · cases hparse

/-- The paths of a run are arguments, or what an argument has after an equals sign. -/
theorem parse_paths {arguments : List Text} (h : parse arguments = some (.run invocation)) :
    (∃ argument ∈ arguments, invocation.file <:+ argument) ∧
      ∀ path, invocation.config = some path → ∃ argument ∈ arguments, path <:+ argument := by
  have hsuffix (s t : Text) (hst : s <:+ t) (ht : ∃ argument ∈ arguments, t <:+ argument) :
      ∃ argument ∈ arguments, s <:+ argument := by
    obtain ⟨argument, hmem, ht⟩ := ht
    exact ⟨argument, hmem, hst.trans ht⟩
  have harguments : ∀ path ∈ arguments, ∃ argument ∈ arguments, path <:+ argument := by
    intro path hmem
    exact ⟨path, hmem, List.suffix_refl path⟩
  exact parseFrom_paths hsuffix (Given.pathsSatisfy_nothing _) harguments h

end

/-! ## Reports -/

namespace Failure

/-- The path that a report shows. -/
def path? : Failure → Option Text
  | config (.unreadable path _) | config (.rejected path _) => some path
  | document fault => some fault.path
  | usage | language _ | output _ => none

/-- The place in a configuration text that a report points at. -/
def pointer? : Failure → Option Pointer
  | config (.rejected _ (.misfit pointer)) => some pointer
  | _ => none

/-- The configuration text that is not well-formed. -/
def malformed? : Failure → Option Text
  | config (.rejected _ (.malformed text)) => some text
  | _ => none

/-- The fault of a file that a report gives as the cause. -/
def readFault? : Failure → Option ReadFault
  | config (.unreadable _ fault) => some fault
  | document fault => some fault.fault
  | _ => none

/-- What is said of a refused write is on one line. -/
theorem newline_not_mem_message_writeError (e : WriteError) : '\n' ∉ e.message := by
  obtain ⟨line, stage, cause⟩ := e
  have hline : '\n' ∉ Text.ofNat line := Text.not_mem_ofNat (by decide) line
  have hstage : '\n' ∉ stage.context := by
    cases stage <;> decide
  have hcause : '\n' ∉ cause.message := by
    cases cause <;> decide
  have hheading :
      '\n' ∉ "Failed to write block at line ".toList ++ Text.ofNat line ++ ": ".toList :=
    List.not_mem_append (List.not_mem_append (by decide) hline) (by decide)
  rw [WriteError.message_eq]
  exact List.not_mem_append hheading (List.not_mem_append hstage hcause)

/-- Around a path there is no newline. -/
theorem newline_mem_shown_iff {before path after : Text} (hbefore : '\n' ∉ before)
    (hafter : '\n' ∉ after) : '\n' ∈ before ++ path ++ ": ".toList ++ after ↔ '\n' ∈ path := by
  have hcolon : '\n' ∉ ": ".toList := by decide
  simp only [List.mem_append, hbefore, hcolon, hafter, false_or, or_false]

/-- A cause goes over several lines if it points into a text, passes on an account that does so, or
shows a path that does so. -/
theorem newline_mem_cause_iff {failure : Failure} (wording : Wording)
    (hknown : ∀ reason, failure.readFault? ≠ some (.refused reason)) :
    '\n' ∈ failure.cause wording ↔
      failure.pointer?.isSome ∨
        (∃ text, failure.malformed? = some text ∧ '\n' ∈ wording.syntaxError text) ∨
        ∃ path, failure.path? = some path ∧ '\n' ∈ path := by
  -- of a failure that shows a path only the last way is left
  have hpath {path : Text} : '\n' ∈ path ↔
      (none : Option Pointer).isSome ∨
        (∃ text, none = some text ∧ '\n' ∈ wording.syntaxError text) ∨
        ∃ shown, some path = some shown ∧ '\n' ∈ shown := by
    simp
  have hread {fault : ReadFault} (h : ∀ reason, some fault ≠ some (.refused reason)) :
      '\n' ∉ fault.message :=
    newline_not_mem_message_readFault fun reason heq => h reason (congrArg some heq)
  cases failure with
  | usage => simp [cause, pointer?, malformed?, path?]
  | language tag =>
    refine iff_of_false (newline_not_mem_message_invalidTag tag) ?_
    simp [pointer?, malformed?, path?]
  | output e =>
    refine iff_of_false (newline_not_mem_message_writeError e) ?_
    simp [pointer?, malformed?, path?]
  | document fault =>
    obtain ⟨path, fault⟩ := fault
    have hmessage := hread hknown
    cases fault with
    | notFound =>
      have hheading : '\n' ∉ "File not found: ".toList := by decide
      refine Iff.trans ?_ hpath
      show '\n' ∈ "File not found: ".toList ++ path ↔ '\n' ∈ path
      rw [List.mem_append, or_iff_right hheading]
    | _ => exact (newline_mem_shown_iff (by decide) hmessage).trans hpath
  | config fault =>
    cases fault with
    | unreadable path fault =>
      exact (newline_mem_shown_iff (by decide) (hread hknown)).trans hpath
    | rejected path fault =>
      cases fault with
      | malformed text =>
        show '\n' ∈ "Invalid config ".toList ++ path ++ ": ".toList ++ wording.syntaxError text ↔ _
        simp [pointer?, malformed?, path?, or_comm]
      | misfit pointer =>
        -- the line pointed into is shown on a line of its own
        refine iff_of_true ?_ (Or.inl rfl)
        exact List.mem_append_right _ (newline_mem_render parseHeading pointer)
      | invalid tag =>
        have htag := newline_not_mem_message_invalidTag tag
        exact (newline_mem_shown_iff (by decide) htag).trans hpath

/-- A report is how the program is called, or a heading and the cause. -/
theorem report_of_ne_usage {failure : Failure} (wording : Wording) (h : failure ≠ usage) :
    failure.report wording = "Error: ".toList ++ failure.cause wording ++ ['\n'] := by
  cases failure with
  | usage => exact absurd rfl h
  | _ => rfl

/-- A report is one line if it points into no text, passes on no account that goes over several, and
shows no path that does so. -/
theorem isLine_report_iff {failure : Failure} (wording : Wording)
    (hknown : ∀ reason, failure.readFault? ≠ some (.refused reason)) :
    (failure.report wording).IsLine ↔
      failure.pointer? = none ∧
        (∀ text, failure.malformed? = some text → '\n' ∉ wording.syntaxError text) ∧
        ∀ path, failure.path? = some path → '\n' ∉ path := by
  by_cases husage : failure = usage
  · rw [husage]
    have hline : usageLine.IsLine := by decide
    exact iff_of_true hline ⟨rfl, nofun, nofun⟩
  · have hheading : '\n' ∉ "Error: ".toList := by decide
    rw [report_of_ne_usage wording husage, isLine_concat_iff, List.mem_append,
      or_iff_right hheading, newline_mem_cause_iff wording hknown, not_or, not_or,
      Option.not_isSome_iff_eq_none]
    simp only [not_exists, not_and]

end Failure

/-! ## Runs -/

section

variable {files : TextFiles} {stdout : Stdout} {invocation : Invocation} {failure : Failure}

/-- What a run can fail with: a fault in the file of the configuration, an invalid tag, a fault in
the file of the document, or a refusal of standard output. In each case nothing has been written. -/
theorem run_of_failure (h : (run files stdout invocation).failure = some failure) :
    (run files stdout invocation).stdout = [] ∧
      ((∃ fault, baseConfig files invocation.config = .error fault ∧ failure = .config fault) ∨
        (∃ tag, failure = .language tag) ∨
        (∃ fault, files invocation.file = .error fault ∧
          failure = .document ⟨invocation.file, fault⟩) ∨
        ∃ e, failure = .output e) := by
  -- the stages of a run in turn: what fails in one is not seen by the next
  rcases hbase : baseConfig files invocation.config with fault | base
  · rw [run_of_base_error stdout hbase] at h ⊢
    exact ⟨rfl, Or.inl ⟨fault, rfl, (Option.some.inj h).symm⟩⟩
  rcases hcheck : checkOptions base invocation with tag | ⟨⟩
  · rw [run_of_check_error stdout hbase hcheck] at h ⊢
    exact ⟨rfl, Or.inr (Or.inl ⟨tag, (Option.some.inj h).symm⟩)⟩
  rcases hfile : files invocation.file with fault | text
  · rw [run_of_file_error stdout hbase hcheck hfile] at h ⊢
    exact ⟨rfl, Or.inr (Or.inr (Or.inl ⟨fault, rfl, (Option.some.inj h).symm⟩))⟩
  cases stdout with
  | working =>
    cases (run_working_of_ok hbase hcheck hfile).2.symm.trans h
  | full buffer =>
    rw [run, settings_of_ok hbase hcheck] at h ⊢
    simp only [Document.read, hfile] at h ⊢
    split at h
    · rename_i e _
      exact ⟨rfl, Or.inr (Or.inr (Or.inr ⟨e, (Option.some.inj h).symm⟩))⟩
    · cases h

/-- A configuration file is at fault because it cannot be read, or because of its text. -/
theorem load_eq_error_cases {path : Text} {fault : LoadFault}
    (h : Config.load files path = .error fault) :
    (∃ cause, files path = .error cause ∧ fault = .unreadable path cause) ∨
      ∃ cause, fault = .rejected path cause := by
  rw [Config.load] at h
  split at h
  · rename_i cause hcause
    exact Or.inl ⟨cause, hcause, (Except.error.inj h).symm⟩
  · split at h
    · rename_i cause _
      exact Or.inr ⟨cause, (Except.error.inj h).symm⟩
    · cases h

/-- The paths that a run reports are those that it was asked for, and on a tree it is known why one
of them cannot be read. -/
theorem report_of_run {tree : FileTree}
    (h : (run tree.texts stdout invocation).failure = some failure) :
    (∀ path, failure.path? = some path → path = invocation.file ∨ invocation.config = some path) ∧
      ∀ reason, failure.readFault? ≠ some (.refused reason) := by
  obtain ⟨-, ⟨fault, hbase, rfl⟩ | ⟨tag, rfl⟩ | ⟨fault, hfile, rfl⟩ | ⟨e, rfl⟩⟩ := run_of_failure h
  · cases hpath : invocation.config with
    | none =>
      rw [hpath] at hbase
      cases hbase
    | some path =>
      rw [hpath] at hbase
      rcases load_eq_error_cases hbase with ⟨cause, hcause, rfl⟩ | ⟨cause, rfl⟩
      · refine ⟨fun _ hshown => Or.inr hshown, ?_⟩
        intro reason hreason
        rw [Option.some.inj hreason] at hcause
        exact FileTree.texts_ne_refused reason tree path hcause
      · exact ⟨fun _ hshown => Or.inr hshown, nofun⟩
  · exact ⟨nofun, nofun⟩
  · refine ⟨fun _ hshown => Or.inl (Option.some.inj hshown).symm, ?_⟩
    intro reason hreason
    have hfault : fault = .refused reason := Option.some.inj hreason
    rw [hfault] at hfile
    exact FileTree.texts_ne_refused reason tree _ hfile
  · exact ⟨nofun, nofun⟩

end

/-! ## The program -/

/-- Nothing but a failure leads to exit code one. -/
theorem exists_failure_of_exitCode_one {outcome : Outcome} (h : outcome.exitCode = 1) :
    ∃ failure, outcome.failure = some failure := by
  rw [← Option.isSome_iff_exists]
  by_contra hnone
  rw [Outcome.exitCode, if_neg hnone] at h
  cases h

/-- **What a failed run reports.** Whenever the program exits with code one, it has written nothing
on standard output, and what it shows on standard error is the report of one failure. A path in it
is an argument, or what an argument has after an equals sign. The report is one line exactly if it
points into no text, no path in it holds a newline, and, if it is about a configuration text that is
not well-formed, what the reader of TOML says of this holds none either. -/
theorem report_of_exitCode_one (wording : Wording) (tree : FileTree) (stdout : Stdout)
    (arguments : List Text) (h : (execute wording tree.texts stdout arguments).exitCode = 1) :
    let outcome := execute wording tree.texts stdout arguments
    outcome.stdout = [] ∧
      ∃ failure, outcome.failure = some failure ∧
        (∀ stamps, outcome.stderr wording stamps .standard = failure.report wording) ∧
        (∀ path, failure.path? = some path → ∃ argument ∈ arguments, path <:+ argument) ∧
        ((failure.report wording).IsLine ↔
          failure.pointer? = none ∧
            (∀ text, failure.malformed? = some text → '\n' ∉ wording.syntaxError text) ∧
            ∀ path, failure.path? = some path → '\n' ∉ path) := by
  intro outcome
  obtain ⟨failure, hfailure⟩ := exists_failure_of_exitCode_one h
  have hstderr (stamps : Nat → Text) :
      outcome.stderr wording stamps .standard = failure.report wording := by
    rw [stderr_execute_standard, Outcome.ending, hfailure]
    rfl
  suffices hfacts : outcome.stdout = [] ∧
      (∀ path, failure.path? = some path → ∃ argument ∈ arguments, path <:+ argument) ∧
      ∀ reason, failure.readFault? ≠ some (.refused reason) by
    obtain ⟨hstdout, hpaths, hknown⟩ := hfacts
    exact ⟨hstdout, failure, hfailure, hstderr, hpaths, Failure.isLine_report_iff wording hknown⟩
  rcases execute_cases wording tree.texts stdout arguments with
    ⟨-, houtcome⟩ | ⟨invocation, hparse, houtcome⟩ | ⟨text, houtcome⟩ <;>
    rw [houtcome] at hfailure
  · -- a usage error shows no path
    obtain rfl := Option.some.inj hfailure
    refine ⟨congrArg Outcome.stdout houtcome, ?_, ?_⟩
    · intro path hpath
      cases hpath
    · intro reason hreason
      cases hreason
  · obtain ⟨hpaths, hknown⟩ := report_of_run hfailure
    obtain ⟨hfile, hconfig⟩ := parse_paths hparse
    refine ⟨(congrArg Outcome.stdout houtcome).trans (run_of_failure hfailure).1, ?_, hknown⟩
    intro path hpath
    rcases hpaths path hpath with rfl | hpath
    · exact hfile
    · exact hconfig path hpath
  · cases hfailure

/-- An invalid language in a configuration file is reported on one line, a file that is not
well-formed on several. -/
theorem report_of_exitCode_one_invalid :
    let invalid := execute sampleWording sampleTree.texts .working ["--config=i".toList, ['d']]
    let malformed := execute sampleWording sampleTree.texts .working ["--config=m".toList, ['d']]
    (invalid.exitCode = 1 ∧
      ∀ stamps, (invalid.stderr sampleWording stamps .standard).IsLine) ∧
    malformed.exitCode = 1 ∧
      ∀ stamps, ¬ (malformed.stderr sampleWording stamps .standard).IsLine := by
  intro invalid malformed
  have hexit : invalid.exitCode = 1 := by decide +kernel
  have hinvalid : invalid.failure =
      some (.config (.rejected ['i'] (.invalid ⟨.language, "r s".toList, .blank⟩))) := by
    decide +kernel
  have hexit' : malformed.exitCode = 1 := by decide +kernel
  have hmalformed : malformed.failure = some (.config (.rejected ['m'] (.malformed ['a']))) := by
    decide +kernel
  refine ⟨⟨hexit, ?_⟩, hexit', ?_⟩
  · obtain ⟨-, failure, hfailure, hstderr, -, hline⟩ := report_of_exitCode_one sampleWording
      sampleTree .working ["--config=i".toList, ['d']] hexit
    obtain rfl := Option.some.inj (hfailure.symm.trans hinvalid)
    intro stamps
    rw [hstderr, hline]
    refine ⟨rfl, nofun, ?_⟩
    intro path hpath
    obtain rfl := Option.some.inj hpath
    decide
  · obtain ⟨-, failure, hfailure, hstderr, -, hline⟩ := report_of_exitCode_one sampleWording
      sampleTree .working ["--config=m".toList, ['d']] hexit'
    obtain rfl := Option.some.inj (hfailure.symm.trans hmalformed)
    intro stamps
    rw [hstderr, hline]
    rintro ⟨-, haccount, -⟩
    exact haccount ['a'] rfl (by decide +kernel)

/-- A document `d`, and a configuration `c` with a key that names no setting. -/
def misnamedTree : FileTree :=
  .directory
    [(['c'], .file (Text.utf8 "lang = \"rust\"\n".toList)), (['d'], .file (Text.utf8 ['x']))]

/-- A key that names no setting is reported with the line that it stands on, and so on several. -/
theorem reports_not_one_line :
    ¬ ∀ (tree : FileTree) (arguments : List Text),
      (execute sampleWording tree.texts .working arguments).exitCode = 1 →
        (execute sampleWording tree.texts .working arguments).stdout = [] ∧
          ∀ stamps, ((execute sampleWording tree.texts .working arguments).stderr sampleWording
            stamps .standard).IsLine := by
  intro h
  have hexit : (execute sampleWording misnamedTree.texts .working
      ["--config".toList, ['c'], ['d']]).exitCode = 1 := by
    decide +kernel
  have hlines : ((execute sampleWording misnamedTree.texts .working
      ["--config".toList, ['c'], ['d']]).stderr sampleWording (fun _ => []) .standard).count
        '\n' = 6 := by
    decide +kernel
  have hline := ((h misnamedTree _ hexit).2 fun _ => []).1
  rw [hlines] at hline
  cases hline

/-- A path that goes over two lines is shown as it is. -/
example :
    (execute sampleWording FileTree.empty.texts .working ["a\nb".toList]).stderr sampleWording
      (fun _ => []) .standard = "Error: File not found: a\nb\n".toList := by
  decide +kernel

end CommandLine

end FencedCode
