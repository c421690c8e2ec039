import FencedCode.Proofs.Config.Acceptance
import FencedCode.Proofs.Language.Opening
import FencedCode.Proofs.Scan.Accounting
import FencedCode.Proofs.Text.LetterCase

/-!
# Valid configurations

A configuration is valid when its language and all its markers are tags that a fence can carry
(`validate_eq_ok_iff`), and none but valid ones come of texts and files (`validate_of_parse`,
`validate_of_load`). Such a tag is not empty and holds no backtick, so each line that opens a block
goes on after its three backticks with something else (`exists_of_opening?_target`). Hence a scan in
a valid configuration never takes one fence for another (`unambiguous_target`).
-/
namespace FencedCode

/-! ## Tags -/

/-- A tag that a fence can carry. -/
structure IsFenceTag (tag : Text) : Prop where
  ne_nil : tag ≠ []
  comma : ',' ∉ tag
  backtick : '\x60' ∉ tag
  blank : ∀ c ∈ tag, Text.isBlank c = false

/-- A tag without a flaw is one that a fence can carry. -/
theorem tagFlaw?_eq_none_iff {tag : Text} : tagFlaw? tag = none ↔ IsFenceTag tag := by
  have hflawless : tagFlaw? tag = none ↔ tag.isEmpty = false ∧
      (tag.contains ',' || tag.contains '\x60') = false ∧ tag.any Text.isBlank = false := by
    rw [tagFlaw?]
    cases tag.isEmpty <;> cases tag.contains ',' || tag.contains '\x60' <;>
      cases tag.any Text.isBlank <;> simp
  rw [hflawless]
  simp only [List.isEmpty_eq_false_iff, Bool.or_eq_false_iff, List.contains_eq_mem,
    decide_eq_false_iff_not, List.any_eq_false, Bool.not_eq_true]
  exact ⟨fun ⟨hempty, ⟨hcomma, hbacktick⟩, hblank⟩ => ⟨hempty, hcomma, hbacktick, hblank⟩,
    fun h => ⟨h.ne_nil, ⟨h.comma, h.backtick⟩, h.blank⟩⟩

namespace Config

variable {config : Config}

/-- A configuration is valid when a fence can carry each of its tags. -/
theorem validate_eq_ok_iff :
    config.validate = .ok () ↔ ∀ tag ∈ config.language :: config.fenceMarkers, IsFenceTag tag := by
  have hinvalid : config.validate = .ok () ↔ config.invalidTag? = none := by
    rw [validate]
    rcases config.invalidTag? with _ | invalid <;> simp
  rw [hinvalid, invalidTag?, List.findSome?_eq_none_iff, tags, List.forall_mem_cons,
    List.forall_mem_cons, List.forall_mem_map]
  simp only [Option.map_eq_none_iff, tagFlaw?_eq_none_iff]

/-! ## Texts and files -/

/-- The standard configuration is valid. -/
theorem validate_standard : standard.validate = .ok () := by
  decide

/-- No text gives an invalid configuration. -/
theorem validate_of_parse {text : Text} (h : parse text = .ok config) :
    config.validate = .ok () := by
  rcases htable : Toml.parse? text with _ | table
  · simp only [parse, htable] at h
    cases h
  · rcases (parse_eq_iff htable).mp h with ⟨_, -, hresult⟩ | ⟨_, _, -, -, hresult⟩ |
      ⟨other, -, hvalid, hresult⟩
    · cases hresult
    · cases hresult
    · obtain rfl := Except.ok.inj hresult
      exact hvalid

/-- A file gives the configuration that its text gives. -/
theorem load_eq_ok_iff {files : TextFiles} {path : Text} :
    load files path = .ok config ↔ ∃ text, files path = .ok text ∧ parse text = .ok config := by
  rcases hfile : files path with fault | text
  · simp [load, hfile]
  · rcases hparse : parse text with fault | read <;> simp [load, hfile, hparse]

/-- So is each that is accepted from a file. -/
theorem validate_of_load {files : TextFiles} {path : Text} (h : load files path = .ok config) :
    config.validate = .ok () := by
  obtain ⟨text, -, hparse⟩ := load_eq_ok_iff.mp h
  exact validate_of_parse hparse

/-! ## The lines that open a block -/

/-- A line that opens a block in a valid configuration has exactly three backticks in front. -/
theorem exists_of_opening?_target (hvalid : config.validate = .ok ()) {line attributes : Text}
    (h : config.target.opening? line = some attributes) :
    ∃ c info, line = fence ++ c :: info ∧ c ≠ '\x60' := by
  obtain ⟨tag, written, -, htag, rfl, -⟩ := Language.opening?_eq_some_iff.mp h
  obtain ⟨marker, hmarker, hsame⟩ := (Language.hasTag_withMarkers _ _ tag).mp htag
  have hfence := validate_eq_ok_iff.mp hvalid marker hmarker
  have hbacktick : '\x60' ∉ tag :=
    mt (Text.mem_iff_of_sameFold (by decide) hsame).mpr hfence.backtick
  cases tag with
  | nil =>
    -- only the empty marker is the same as the empty tag
    have hlength := (Text.sameFold_iff_forall₂.mp hsame).length_eq
    exact absurd (List.length_eq_zero_iff.mp hlength) hfence.ne_nil
  | cons c tag =>
    exact ⟨c, _, rfl, fun hc => hbacktick (hc ▸ List.mem_cons_self)⟩

end Config

/-! ## Scans -/

namespace Scan

/-- In a scan of lines no fence is taken for another: those that end a block start none. -/
structure Unambiguous (language : Language) (lines : List Text) : Prop where
  /-- no block opens with a bare fence -/
  bare : language.opening? fence = none
  /-- nor with more than three backticks -/
  longer : ∀ info, language.opening? (fence ++ '\x60' :: info) = none
  /-- so these lines are not among those on which a block opens -/
  opened : ∀ number, OpensAt language lines number →
    ∃ line, lines[number - 1]? = some line ∧ line ≠ fence ∧ ¬ fence ++ ['\x60'] <+: line
  /-- in any state outside all blocks a bare fence does nothing -/
  step_bare : ∀ state : State, state.mode = .outside → ∀ number,
    state.step language number fence = (state, .quiet)
  /-- and so reading it does not change what has come of the lines before -/
  ignored : ∀ index, lines[index]? = some fence → openAfter language (lines.take index) = none →
    trace language (lines.take (index + 1)) 0 .initial =
      trace language (lines.take index) 0 .initial

section

variable {language : Language} {lines : List Text}

/-- A line on which a block opens is one that the language accepts. -/
theorem OpensAt.accepted {number : Nat} (h : OpensAt language lines number) :
    Accepted language lines (number - 1) := by
  obtain ⟨index, rfl, -⟩ := id h
  exact (isOpener_iff_before.mp (opensAt_iff_isOpener.mp h)).1

/-- A line that is read without any effect. -/
theorem trace_take_succ_of_quiet {index : Nat} {line : Text} (hline : lines[index]? = some line)
    {state : State} (hstate : (trace language (lines.take index) 0 .initial).state = state)
    (hquiet : ∀ number, state.step language number line = (state, .quiet)) :
    trace language (lines.take (index + 1)) 0 .initial =
      trace language (lines.take index) 0 .initial := by
  rw [List.take_add_one, hline, Option.toList_some, trace_append, trace_cons, hstate, hquiet,
    trace_nil, ← hstate]
  simp [Trace.followedBy, Trace.after, Event.block?, Event.record?]

/-- It is enough that each line that opens a block has exactly three backticks in front. -/
theorem unambiguous_of_opening?
    (h : ∀ line attributes, language.opening? line = some attributes →
      ∃ c info, line = fence ++ c :: info ∧ c ≠ '\x60') (lines : List Text) :
    Unambiguous language lines := by
  have hbare : language.opening? fence = none := by
    rw [Option.eq_none_iff_forall_ne_some]
    intro attributes hopening
    obtain ⟨c, info, hline, -⟩ := h fence attributes hopening
    exact absurd (List.append_cancel_left ((List.append_nil fence).trans hline)) (by simp)
  have hlonger (info : Text) : language.opening? (fence ++ '\x60' :: info) = none := by
    rw [Option.eq_none_iff_forall_ne_some]
    intro attributes hopening
    obtain ⟨c, rest, hline, hc⟩ := h _ attributes hopening
    exact hc (List.cons.inj (List.append_cancel_left hline)).1.symm
  -- what opens no block is prose outside of all blocks
  have hstep (state : State) (hmode : state.mode = .outside) (number : Nat) :
      state.step language number fence = (state, .quiet) :=
    State.step_prose (by rw [State.openBlock?, hmode]) hbare
  refine ⟨hbare, hlonger, ?_, hstep, ?_⟩
  · intro number hopens
    obtain ⟨line, hline, haccepted⟩ := hopens.accepted
    refine ⟨line, hline, ?_, ?_⟩
    · rintro rfl
      rw [hbare] at haccepted
      cases haccepted
    · rintro ⟨info, rfl⟩
      rw [List.append_assoc, List.singleton_append, hlonger] at haccepted
      cases haccepted
  · intro index hline hopen
    exact trace_take_succ_of_quiet hline rfl
      (hstep _ (State.mode_of_openBlock?_none hopen))

/-- The language of a valid configuration takes no fence for another. -/
theorem unambiguous_target {config : Config} (h : config.validate = .ok ()) (lines : List Text) :
    Unambiguous config.target lines :=
  unambiguous_of_opening? (fun _ _ => Config.exists_of_opening?_target h) lines

end

end Scan

end FencedCode
