import FencedCode.Proofs.CommandLine.Refinement
import Mathlib.Data.List.Nodup
import Mathlib.Data.List.Perm.Basic

/-!
# Orders and spellings of arguments

The same choices can be written on a command line in many ways: in any order, the value of an option
in the same argument or in the next one, and the last files after two hyphens (`Spells`). What is
read from left to right comes to a condition on the choices alone (`foldlM_add_eq_some_iff`): each
has a slot of its own, and each fits its slot. This does not depend on their order, nor does what
they set (`foldl_put_perm`), so all ways of writing them ask for the same run, or all of them are
unusable (`execute_arrangement`).
-/
namespace FencedCode.CommandLine

/-! ## Choices -/

/-- One thing that is chosen on a command line: the file, or the value of an option. -/
inductive Choice where
  | file (path : Text)
  | option (name : OptionName) (value : Text)
  deriving DecidableEq, Repr

/-- What a choice is about. -/
inductive Slot where
  | file
  | option (name : OptionName)
  deriving DecidableEq, Repr

namespace Choice

/-- The slot of a choice. -/
def slot : Choice → Slot
  | file _ => .file
  | option name _ => .option name

/-- Whether a choice is one that there is: paths are not empty, and a format has a name. -/
def fits : Choice → Bool
  | file path => !path.isEmpty
  | option .language _ => true
  | option .format value => (Format.ofName? value).isSome
  | option .config value => !value.isEmpty

end Choice

namespace Given

/-- Takes a choice, if it can be taken. -/
def add (given : Given) : Choice → Option Given
  | .file path => given.setFile path
  | .option name value => given.setOption name value

/-- Whether there is a choice in a slot. -/
def holds (given : Given) : Slot → Bool
  | .file => given.file.isSome
  | .option .language => given.language.isSome
  | .option .format => given.format.isSome
  | .option .config => given.config.isSome

/-- Puts a choice into its slot, whatever is there. -/
def put (given : Given) : Choice → Given
  | .file path => { given with file := some path }
  | .option .language value => { given with language := some value }
  | .option .format value => { given with format := Format.ofName? value }
  | .option .config value => { given with config := some value }

/-- A choice can be taken if it fits and its slot is free. -/
structure Admits (given : Given) (choice : Choice) : Prop where
  free : given.holds choice.slot = false
  fits : choice.fits = true

section

variable {given result : Given} {choice other : Choice} {choices others : List Choice}

/-! ## Taking one choice -/

/-- A choice is put into its slot if it fits and the slot is free. -/
theorem add_eq (given : Given) (choice : Choice) :
    given.add choice =
      if given.holds choice.slot || !choice.fits then none else some (given.put choice) := by
  rcases choice with path | ⟨_ | _ | _, value⟩
  · simp only [add, setFile, holds, Choice.slot, Choice.fits, put, Bool.not_not]
  · simp only [add, setOption, holds, Choice.slot, Choice.fits, put, Bool.not_true, Bool.or_false]
  · rcases hformat : Format.ofName? value with _ | format <;>
      cases hholds : given.format.isSome <;>
        simp [add, setOption, holds, Choice.slot, Choice.fits, put, hformat, hholds]
  · simp only [add, setOption, holds, Choice.slot, Choice.fits, put, Bool.not_not]

/-- A choice that can be taken is put into its slot. -/
theorem add_of_admits (h : given.Admits choice) : given.add choice = some (given.put choice) := by
  rw [add_eq, h.free, h.fits]
  rfl

/-- One that cannot be taken makes the command line unusable. -/
theorem add_of_not_admits (h : ¬ given.Admits choice) : given.add choice = none := by
  rw [add_eq, if_pos]
  by_contra hfree
  rw [Bool.or_eq_true, not_or, Bool.not_eq_true, Bool.not_eq_true', Bool.not_eq_false] at hfree
  exact h ⟨hfree.1, hfree.2⟩

/-- A choice that is put fills its slot and no other. -/
theorem holds_put (hfits : choice.fits = true) (slot : Slot) :
    (given.put choice).holds slot = (given.holds slot || decide (slot = choice.slot)) := by
  rcases choice with path | ⟨_ | _ | _, value⟩ <;> rcases slot with _ | ⟨_ | _ | _⟩ <;>
    simp_all [put, holds, Choice.slot, Choice.fits]

/-- Then those can be taken that could be before, unless they have the same slot. -/
theorem admits_put_iff (hfits : choice.fits = true) :
    (given.put choice).Admits other ↔ given.Admits other ∧ choice.slot ≠ other.slot := by
  constructor
  · rintro ⟨hfree, hother⟩
    rw [holds_put hfits, Bool.or_eq_false_iff, decide_eq_false_iff_not] at hfree
    exact ⟨⟨hfree.1, hother⟩, Ne.symm hfree.2⟩
  · rintro ⟨⟨hfree, hother⟩, hslot⟩
    refine ⟨?_, hother⟩
    rw [holds_put hfits, hfree, Bool.false_or, decide_eq_false_iff_not]
    exact hslot.symm

/-- Choices with slots of their own can be put in either order. -/
theorem put_comm (h : choice.slot ≠ other.slot) :
    (given.put choice).put other = (given.put other).put choice := by
  rcases choice with path | ⟨_ | _ | _, value⟩ <;> rcases other with path' | ⟨_ | _ | _, value'⟩ <;>
    first | rfl | exact absurd rfl h

/-! ## Taking all choices -/

/-- Choices are taken one after the other exactly if no two of them have the same slot and each
could be taken alone. -/
theorem foldlM_add_eq_some_iff :
    choices.foldlM add given = some result ↔
      (choices.map Choice.slot).Nodup ∧ (∀ choice ∈ choices, given.Admits choice) ∧
        result = choices.foldl put given := by
  induction choices generalizing given with
  | nil => simp [eq_comm]
  | cons choice choices ih =>
    rw [List.foldlM_cons, List.map_cons, List.nodup_cons, List.forall_mem_cons, List.foldl_cons]
    by_cases h : given.Admits choice
    · rw [add_of_admits h]
      -- the rest finds things as before, but for the slot that is taken now
      have hrest : (∀ other ∈ choices, (given.put choice).Admits other) ↔
          choice.slot ∉ choices.map Choice.slot ∧ ∀ other ∈ choices, given.Admits other := by
        simp only [admits_put_iff h.fits, List.mem_map, not_exists, not_and]
        constructor
        · intro hall
          exact ⟨fun other hmem hslot => (hall other hmem).2 hslot.symm,
            fun other hmem => (hall other hmem).1⟩
        · rintro ⟨hslots, hall⟩ other hmem
          exact ⟨hall other hmem, fun hslot => hslots other hmem hslot.symm⟩
      refine ih.trans ?_
      rw [hrest]
      tauto
    · rw [add_of_not_admits h]
      refine iff_of_false nofun ?_
      rintro ⟨-, ⟨hadmits, -⟩, -⟩
      exact h hadmits

/-- What choices with slots of their own set does not depend on their order. -/
theorem foldl_put_perm (h : choices.Perm others) (hslots : (choices.map Choice.slot).Nodup) :
    choices.foldl put given = others.foldl put given := by
  -- it is enough to swap two of them; with one slot they are one and the same choice
  refine h.foldl_eq' (fun first hfirst second hsecond given => ?_) given
  by_cases hslot : first.slot = second.slot
  · rw [List.inj_on_of_nodup_map hslots hfirst hsecond hslot]
  · exact put_comm hslot

end

end Given

/-! ## Ways of writing choices -/

/-- An argument that is no option: it starts with no hyphen, unless it is nothing but one. -/
def IsPlain (argument : Text) : Prop :=
  argument.head? = some '-' → argument = ['-']

instance (argument : Text) : Decidable (IsPlain argument) :=
  inferInstanceAs (Decidable (_ → _))

/-- The arguments that are taken for values or files are the plain ones. -/
theorem isValue_iff {argument : Text} : isValue argument = true ↔ IsPlain argument := by
  rw [isValue, Bool.or_eq_true, beq_iff_eq, bne_iff_ne, IsPlain]
  tauto

/-- An option as it is written. -/
def OptionName.flag : OptionName → Text
  | language => "--lang".toList
  | format => "--format".toList
  | config => "--config".toList

/-- Arguments that write choices in this order. An option is written with an equals sign between it
and its value, or with its value as the next argument; the files that come last can be set off by
two hyphens. -/
inductive Spells : List Choice → List Text → Prop where
  | nil : Spells [] []
  | file {path : Text} {choices : List Choice} {arguments : List Text} (hplain : IsPlain path)
      (h : Spells choices arguments) : Spells (.file path :: choices) (path :: arguments)
  | joined {name : OptionName} {value : Text} {choices : List Choice} {arguments : List Text}
      (h : Spells choices arguments) :
      Spells (.option name value :: choices) ((name.flag ++ '=' :: value) :: arguments)
  | separate {name : OptionName} {value : Text} {choices : List Choice} {arguments : List Text}
      (hplain : IsPlain value) (h : Spells choices arguments) :
      Spells (.option name value :: choices) (name.flag :: value :: arguments)
  | files (paths : List Text) : Spells (paths.map .file) (['-', '-'] :: paths)

section

variable {path value : Text} {arguments : List Text} {given : Given}

/-! ## Reading them back -/

/-- A plain argument is the file. -/
theorem parseFrom_file (hplain : IsPlain path) :
    parseFrom (path :: arguments) given = given.add (.file path) >>= parseFrom arguments := by
  have hvalue : isValue path = true := isValue_iff.mpr hplain
  have hdashes : path ≠ ['-', '-'] := by
    rintro rfl
    cases hvalue
  rw [parseFrom, if_neg hdashes, if_pos hvalue]
  rfl

/-- An option is found by its name after the hyphens. -/
theorem ofName?_drop_flag (name : OptionName) :
    OptionName.ofName? (name.flag.drop 2) = some name := by
  cases name <;> decide

/-- No option that takes a value asks for help or the version. -/
theorem ofFlag?_drop_flag (name : OptionName) : Request.ofFlag? (name.flag.drop 2) = none := by
  cases name <;> decide

/-- The first equals sign of an argument ends the name of the option. -/
theorem splitOption_joined (name : OptionName) (value : Text) :
    splitOption (name.flag ++ '=' :: value) = (name.flag.drop 2, some value) := by
  have hname : ∀ c ∈ name.flag.drop 2, (c != '=') = true := by
    cases name <;> exact List.all_eq_true.mp rfl
  have hdrop : (name.flag ++ '=' :: value).drop 2 = name.flag.drop 2 ++ '=' :: value := by
    cases name <;> rfl
  rw [splitOption, hdrop, List.takeWhile_append_of_pos hname, List.dropWhile_append_of_pos hname]
  simp

/-- Without an equals sign there is no value in the argument itself. -/
theorem splitOption_flag (name : OptionName) :
    splitOption name.flag = (name.flag.drop 2, none) := by
  cases name <;> decide

theorem exists_flag_eq (name : OptionName) : ∃ c body, name.flag = '-' :: '-' :: c :: body := by
  cases name with
  | language => exact ⟨'l', "ang".toList, by decide⟩
  | format => exact ⟨'f', "ormat".toList, by decide⟩
  | config => exact ⟨'c', "onfig".toList, by decide⟩

/-- An option starts with two hyphens and goes on after them. -/
theorem flag_append (name : OptionName) (rest : Text) :
    name.flag ++ rest ≠ ['-', '-'] ∧ isValue (name.flag ++ rest) = false ∧
      ['-', '-'].isPrefixOf (name.flag ++ rest) = true := by
  obtain ⟨c, body, hflag⟩ := exists_flag_eq name
  rw [hflag]
  exact ⟨by simp, by simp [isValue], by simp⟩

/-- An option with its value after an equals sign is taken as one argument. -/
theorem parseFrom_joined (name : OptionName) :
    parseFrom ((name.flag ++ '=' :: value) :: arguments) given =
      given.add (.option name value) >>= parseFrom arguments := by
  obtain ⟨hdashes, hvalue, hlong⟩ := flag_append name ('=' :: value)
  rw [parseFrom, if_neg hdashes, hvalue, hlong, splitOption_joined]
  simp only [Bool.false_eq_true, if_false, Bool.not_true, ofName?_drop_flag]
  rfl

/-- An option without one takes the next argument, which has to be plain. -/
theorem parseFrom_separate (hplain : IsPlain value) (name : OptionName) :
    parseFrom (name.flag :: value :: arguments) given =
      given.add (.option name value) >>= parseFrom arguments := by
  obtain ⟨hdashes, hvalue, hlong⟩ := flag_append name []
  rw [List.append_nil] at hdashes hvalue hlong
  rw [parseFrom, if_neg hdashes, hvalue, hlong, splitOption_flag]
  simp only [Bool.false_eq_true, if_false, Bool.not_true, ofFlag?_drop_flag, ofName?_drop_flag,
    isValue_iff.mpr hplain, if_true]
  rfl

/-- The run that is asked for, once there is a file. -/
def Given.request? (given : Given) : Option Request :=
  given.invocation?.map .run

/-- If what is read after a choice comes to taking the rest, all comes to taking the choices. -/
theorem add_bind_eq {choices : List Choice} {read : Given → Option Request}
    (hread : ∀ given, read given = choices.foldlM Given.add given >>= Given.request?)
    (choice : Choice) (given : Given) :
    given.add choice >>= read = (choice :: choices).foldlM Given.add given >>= Given.request? := by
  rw [List.foldlM_cons, bind_assoc]
  exact congrArg (given.add choice >>= ·) (funext hread)

/-- After two hyphens each argument is a file, plain or not. -/
theorem parseFiles_eq (paths : List Text) (given : Given) :
    parseFiles paths given = (paths.map .file).foldlM Given.add given >>= Given.request? := by
  induction paths generalizing given with
  | nil => rfl
  | cons path paths ih => exact add_bind_eq ih (.file path) given

/-- However choices are written, they are taken one after the other. -/
theorem parseFrom_of_spells {choices : List Choice} (h : Spells choices arguments) (given : Given) :
    parseFrom arguments given = choices.foldlM Given.add given >>= Given.request? := by
  -- each way of writing a choice is one step of the reading; what is given so far goes along
  induction h generalizing given with
  | nil =>
    rw [parseFrom]
    rfl
  | file hplain _ ih =>
    rw [parseFrom_file hplain]
    exact add_bind_eq ih _ given
  | joined _ ih =>
    rw [parseFrom_joined]
    exact add_bind_eq ih _ given
  | separate hplain _ ih =>
    rw [parseFrom_separate hplain]
    exact add_bind_eq ih _ given
  | files paths =>
    rw [parseFrom, if_pos rfl]
    exact parseFiles_eq paths given

end

/-! ## All arrangements of a run -/

/-- The choices that ask for a run. -/
def Invocation.choices (invocation : Invocation) : List Choice :=
  .file invocation.file ::
    ((invocation.language.map (.option .language)).toList ++
      (invocation.format.map fun format => .option .format format.name).toList ++
      (invocation.config.map (.option .config)).toList)

section

variable {invocation : Invocation} {choices : List Choice} {arguments : List Text}

/-- A run has one choice at most for each slot. -/
theorem nodup_slot_choices (invocation : Invocation) :
    (invocation.choices.map Choice.slot).Nodup := by
  obtain ⟨file, language | _, format | _, config | _⟩ := invocation <;>
    exact of_decide_eq_true rfl

/-- Without empty paths each of the choices can be taken. -/
theorem admits_choices (hfile : invocation.file ≠ []) (hconfig : invocation.config ≠ some []) :
    ∀ choice ∈ invocation.choices, Given.nothing.Admits choice := by
  intro choice hmem
  simp only [Invocation.choices, List.mem_cons, List.mem_append, Option.mem_toList,
    Option.map_eq_some_iff] at hmem
  rcases hmem with rfl | (⟨value, -, rfl⟩ | ⟨format, -, rfl⟩) | ⟨path, hpath, rfl⟩
  · exact ⟨rfl, by simpa [Choice.fits] using hfile⟩
  · exact ⟨rfl, rfl⟩
  · exact ⟨rfl, by rw [Choice.fits, Format.ofName?_name]; rfl⟩
  · refine ⟨rfl, ?_⟩
    have hne : path ≠ [] := by
      rintro rfl
      exact hconfig hpath
    simpa [Choice.fits] using hne

/-- Its choices, put into their slots, ask for it. -/
theorem request?_choices (invocation : Invocation) :
    (invocation.choices.foldl Given.put .nothing).request? = some (.run invocation) := by
  obtain ⟨file, _ | language, _ | format, _ | config⟩ := invocation <;>
    simp [Invocation.choices, Given.put, Given.nothing, Given.request?, Given.invocation?,
      Format.ofName?_name]

/-- Arguments that write the choices of a run in some order. -/
def Arranges (invocation : Invocation) (arguments : List Text) : Prop :=
  ∃ choices : List Choice, choices.Perm invocation.choices ∧ Spells choices arguments

/-- All arrangements ask for the run. -/
theorem parse_of_arranges (hfile : invocation.file ≠ []) (hconfig : invocation.config ≠ some [])
    (h : Arranges invocation arguments) : parse arguments = some (.run invocation) := by
  obtain ⟨choices, hperm, hspells⟩ := h
  have hslots : (choices.map Choice.slot).Nodup :=
    (hperm.map Choice.slot).nodup_iff.mpr (nodup_slot_choices invocation)
  -- in different slots the choices can be put in any order
  have htaken : choices.foldlM Given.add .nothing =
      some (invocation.choices.foldl Given.put .nothing) :=
    Given.foldlM_add_eq_some_iff.mpr ⟨hslots,
      fun choice hmem => admits_choices hfile hconfig choice (hperm.subset hmem),
      (Given.foldl_put_perm hperm hslots).symm⟩
  rw [parse, parseFrom_of_spells hspells, htaken]
  exact request?_choices invocation

/-- Where two choices have the same slot, nothing is asked for. -/
theorem parse_of_two_le_count (h : Spells choices arguments) {slot : Slot}
    (hcount : 2 ≤ (choices.map Choice.slot).count slot) : parse arguments = none := by
  have hslots : ¬ (choices.map Choice.slot).Nodup := by
    intro hnodup
    have hle := List.nodup_iff_count_le_one.mp hnodup slot
    omega
  have htaken : choices.foldlM Given.add .nothing = none := by
    rw [Option.eq_none_iff_forall_ne_some]
    intro given hgiven
    exact hslots (Given.foldlM_add_eq_some_iff.mp hgiven).1
  rw [parse, parseFrom_of_spells h, htaken]
  rfl

end

/-- **Order and spelling of arguments do not matter.** All arrangements of a run whose paths are not
empty ask for it, so they come to the same exit code, standard output and standard error, whatever
the files, the state of standard output, the filter and the times of logging are. An option that is
given twice or a second file makes every arrangement unusable: the exit code is one, and all that is
shown, debug lines apart, is how the program is called. -/
theorem execute_arrangement (wording : Wording) (files : TextFiles) (stdout : Stdout) :
    (∀ invocation : Invocation, invocation.file ≠ [] → invocation.config ≠ some [] →
      ∀ first second, Arranges invocation first → Arranges invocation second →
        let outcome := execute wording files stdout first
        let other := execute wording files stdout second
        parse first = some (.run invocation) ∧
        outcome.exitCode = other.exitCode ∧ outcome.stdout = other.stdout ∧
        ∀ stamps filter,
          outcome.stderr wording stamps filter = other.stderr wording stamps filter) ∧
    ∀ choices arguments, Spells choices arguments →
      (∃ slot, 2 ≤ (choices.map Choice.slot).count slot) →
        let outcome := execute wording files stdout arguments
        outcome.exitCode = 1 ∧ outcome.stdout = [] ∧
        ∀ (stamps : Nat → Text) (filter : LogFilter), filter.admits .debug = false →
          outcome.stderr wording stamps filter =
            "Usage: extract-code-blocks [OPTIONS] <markdown-file>\n".toList := by
  constructor
  · intro invocation hfile hconfig first second hfirst hsecond outcome other
    have hparse := parse_of_arranges hfile hconfig hfirst
    have hsame : outcome = other :=
      (execute_of_parse wording files stdout hparse).trans
        (execute_of_parse wording files stdout (parse_of_arranges hfile hconfig hsecond)).symm
    rw [hsame]
    exact ⟨hparse, rfl, rfl, fun _ _ => rfl⟩
  · rintro choices arguments hspells ⟨slot, hcount⟩ outcome
    have houtcome : outcome = .failed [usageNotice wording arguments] .usage := by
      simp only [outcome, execute, parse_of_two_le_count hspells hcount]
    rw [houtcome]
    refine ⟨rfl, rfl, ?_⟩
    intro stamps filter hfilter
    -- the only line of the log is a debug line
    have hshown : [usageNotice wording arguments].filter
        (fun line => filter.admits line.level) = [] :=
      List.filter_cons_of_neg (by rw [usageNotice, notice, hfilter]; exact Bool.false_ne_true)
    rw [Outcome.stderr, Outcome.failed, hshown]
    rfl

/-- Options before and after the file, with a hyphen as a value and two in front of the file; and a
language that is given twice. -/
theorem execute_arrangement_reversed :
    let invocation : Invocation := ⟨['d'], some ['-'], some .records, some ['v']⟩
    let first : List Text :=
      ["--config".toList, ['v'], "--lang".toList, ['-'], "--format=records".toList, ['-', '-'],
        ['d']]
    let second : List Text :=
      [['d'], "--format".toList, "records".toList, "--lang=-".toList, "--config=v".toList]
    let twice : List Text := ["--lang=-".toList, ['d'], "--lang".toList, ['-']]
    (Arranges invocation first ∧ Arranges invocation second ∧
      (execute sampleWording sampleTree.texts .working first).stdout =
        Text.utf8 "4\t\tb\x00".toList ∧
      (execute sampleWording sampleTree.texts .working second).stdout =
        Text.utf8 "4\t\tb\x00".toList) ∧
    Spells [.option .language ['-'], .file ['d'], .option .language ['-']] twice ∧
      ∀ stamps, (execute sampleWording sampleTree.texts .working twice).stderr sampleWording stamps
        .standard = "Usage: extract-code-blocks [OPTIONS] <markdown-file>\n".toList := by
  intro invocation first second twice
  have hfirst : Arranges invocation first := by
    refine ⟨[.option .config ['v'], .option .language ['-'], .option .format "records".toList,
      .file ['d']], by decide, ?_⟩
    exact .separate (by decide) (.separate (by decide) (.joined (.files [['d']])))
  have hsecond : Arranges invocation second := by
    refine ⟨[.file ['d'], .option .format "records".toList, .option .language ['-'],
      .option .config ['v']], by decide, ?_⟩
    exact .file (by decide) (.separate (by decide) (.joined (.joined .nil)))
  have htwice : Spells [.option .language ['-'], .file ['d'], .option .language ['-']] twice :=
    .joined (.file (by decide) (.separate (by decide) .nil))
  have hwritten : (execute sampleWording sampleTree.texts .working second).stdout =
      Text.utf8 "4\t\tb\x00".toList := by
    decide +kernel
  obtain ⟨hsame, husage⟩ := execute_arrangement sampleWording sampleTree.texts .working
  obtain ⟨-, -, hstdout, -⟩ := hsame invocation (by decide) (by decide) first second hfirst hsecond
  obtain ⟨-, -, hstderr⟩ := husage _ twice htwice ⟨.option .language, by decide⟩
  exact ⟨⟨hfirst, hsecond, hstdout.trans hwritten, hwritten⟩, htwice,
    fun stamps => hstderr stamps .standard (by decide)⟩

end FencedCode.CommandLine
