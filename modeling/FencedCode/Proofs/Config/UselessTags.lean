import FencedCode.Proofs.Config.Validity
import FencedCode.Proofs.Language.TagSets

/-!
# Tags of which no text has a block

A tag is useless if no text has a block of the language that is known by it alone. That is so of the
tags with a comma, at which a fence cuts its tag off, and of those with a line end, which no line
holds (`isUseless_iff`); every other tag is read back from the fence that it stands on. Validation
refuses all useless tags, but it goes further (`not_isFenceTag_iff`): with the empty tag a bare
fence would open a block, with a backtick in front a fence would be taken for a longer one, and
white space would be part of the tag. So a tag that is refused may well have blocks
(`invalid_tag_not_useless`).
-/
namespace FencedCode

open Scan

/-! ## Scans that open nothing -/

/-- Outside all blocks, lines none of which opens one bring about nothing. -/
theorem Scan.trace_of_opening?_eq_none {language : Language} {lines : List Text}
    (h : ∀ line ∈ lines, language.opening? line = none) {state : State}
    (hstate : state.openBlock? = none) (taken : Nat) :
    trace language lines taken state = ⟨[], [], state⟩ := by
  induction lines generalizing taken with
  | nil => rfl
  | cons line lines ih =>
    obtain ⟨hline, hlines⟩ := List.forall_mem_cons.mp h
    rw [trace_cons, State.step_prose hstate hline, ih hlines]
    rfl

/-- A document in which no line opens a block has none, and nothing is remarked on. -/
theorem Scan.scanLines_of_opening?_eq_none {language : Language} {lines : List Text}
    (h : ∀ line ∈ lines, language.opening? line = none) : scanLines language lines = ([], []) := by
  rw [scanLines_eq, trace_of_opening?_eq_none h State.openBlock?_initial]
  rfl

/-! ## Useless tags -/

/-- No text has a block of the language that is known by the tag alone. -/
def IsUseless (tag : Text) : Prop :=
  ∀ text, extractBlocks text (Language.ofName tag) = []

section

variable {tag : Text}

/-- A tag with a line end is on no line. -/
theorem Language.opening?_ofName_of_not_oneLine (htag : ¬ OneLine tag) {line : Text}
    (hline : OneLine line) : (ofName tag).opening? line = none := by
  rw [Option.eq_none_iff_forall_ne_some]
  intro attributes hopening
  obtain ⟨written, given, -, hhas, rfl, -⟩ := opening?_eq_some_iff.mp hopening
  rw [hasTag_ofName] at hhas
  -- what is written is the tag up to letter case, so it has the same line ends
  have hwritten : OneLine written := (Layout.oneLine_openingFence.mp hline).1
  exact htag ⟨mt (Text.mem_iff_of_sameFold (by decide) hhas).mp hwritten.1,
    mt (Text.mem_iff_of_sameFold (by decide) hhas).mp hwritten.2⟩

/-- A tag without a comma and line ends has a block in the text that is nothing but its fence. -/
theorem extractBlocks_fence_ofName (hcomma : ',' ∉ tag) (hone : OneLine tag) :
    extractBlocks (fence ++ tag) (Language.ofName tag) = [⟨1, [], []⟩] := by
  have hhas : (Language.ofName tag).hasTag tag = true := by
    rw [Language.hasTag_ofName]
    exact Text.sameFold_iff.mpr rfl
  rw [Language.extractBlocks_fence_append _ hone hcomma, if_pos hhas]

/-- The useless tags are those with a comma or a line end. -/
theorem isUseless_iff : IsUseless tag ↔ ',' ∈ tag ∨ '\n' ∈ tag ∨ '\r' ∈ tag := by
  constructor
  · intro huseless
    by_contra hfree
    rw [not_or, not_or] at hfree
    obtain ⟨hcomma, hnewline, hreturn⟩ := hfree
    -- the fence alone is a text with a block
    have hblock := extractBlocks_fence_ofName hcomma ⟨hreturn, hnewline⟩
    rw [huseless] at hblock
    cases hblock
  · intro h text
    have hopening : ∀ line ∈ (Document.ofText text).lines,
        (Language.ofName tag).opening? line = none := by
      intro line hmem
      -- no tag is read with a comma, and no line of a document holds a line end
      rcases h with hcomma | hend
      · exact Language.opening?_ofName_of_comma hcomma line
      · refine Language.opening?_ofName_of_not_oneLine ?_ (Document.oneLine_of_mem_lines hmem)
        rintro ⟨hreturn, hnewline⟩
        exact hend.elim hnewline hreturn
    rw [extractBlocks, extract, scanLines_of_opening?_eq_none hopening]

/-- A tag that no fence can carry is useless or else empty, or it holds a backtick or white
space. -/
theorem not_isFenceTag_iff :
    ¬ IsFenceTag tag ↔
      IsUseless tag ∨ tag = [] ∨ '\x60' ∈ tag ∨ ∃ c ∈ tag, Text.isBlank c = true := by
  rw [isUseless_iff]
  constructor
  · intro hfault
    by_contra hnone
    simp only [not_or, not_exists, not_and, Bool.not_eq_true] at hnone
    obtain ⟨⟨hcomma, -, -⟩, hne, hbacktick, hblank⟩ := hnone
    exact hfault ⟨hne, hcomma, hbacktick, hblank⟩
  · rintro ((hcomma | hnewline | hreturn) | hempty | hbacktick | ⟨c, hmem, hblank⟩) hsound
    · exact hsound.comma hcomma
    · exact absurd (hsound.blank _ hnewline) (by decide)
    · exact absurd (hsound.blank _ hreturn) (by decide)
    · exact hsound.ne_nil hempty
    · exact hsound.backtick hbacktick
    · exact absurd (hsound.blank c hmem) (by rw [hblank]; decide)

end

/-- **Validation refuses every useless tag.** Of a configuration with a language and no markers it
does so exactly if no text has a block of that language or, besides, if the tag is empty or holds a
backtick or white space. No text has one exactly if the tag holds a comma or a line end; any other
tag, refused or not, has a block in the text that is nothing but its fence. -/
theorem validate_refuses_useless (tag : Text) (format : Format) :
    let config : Config := ⟨tag, [], format⟩
    (config.validate ≠ .ok () ↔
      (∀ text, extractBlocks text (Language.ofName tag) = []) ∨
        tag = [] ∨ '\x60' ∈ tag ∨ ∃ c ∈ tag, Text.isBlank c = true) ∧
    ((∀ text, extractBlocks text (Language.ofName tag) = []) ↔
      ',' ∈ tag ∨ '\n' ∈ tag ∨ '\r' ∈ tag) ∧
    (¬ (',' ∈ tag ∨ '\n' ∈ tag ∨ '\r' ∈ tag) →
      extractBlocks (fence ++ tag) (Language.ofName tag) = [⟨1, [], []⟩]) := by
  intro config
  refine ⟨?_, isUseless_iff, ?_⟩
  · have hvalid : config.validate = .ok () ↔ IsFenceTag tag := by
      rw [Config.validate_eq_ok_iff]
      exact List.forall_mem_singleton
    rw [Ne, hvalid]
    exact not_isFenceTag_iff
  · intro hfree
    rw [not_or, not_or] at hfree
    obtain ⟨hcomma, hnewline, hreturn⟩ := hfree
    exact extractBlocks_fence_ofName hcomma ⟨hreturn, hnewline⟩

/-- A tag with a blank, a tag that starts with a backtick and the empty one are refused, although
there are texts with blocks of them. -/
theorem invalid_tag_not_useless :
    (Config.validate ⟨"r s".toList, [], .records⟩ ≠ .ok () ∧
      extractBlocks "\x60\x60\x60r s\nx\n\x60\x60\x60".toList (Language.ofName "r s".toList) =
        [⟨1, [], ['x']⟩]) ∧
    (Config.validate ⟨['\x60'], [], .records⟩ ≠ .ok () ∧
      extractBlocks "\x60\x60\x60\x60\nx\n\x60\x60\x60".toList (Language.ofName ['\x60']) =
        [⟨1, [], ['x']⟩]) ∧
    (Config.validate ⟨[], [], .records⟩ ≠ .ok () ∧
      extractBlocks "\x60\x60\x60\nx\n\x60\x60\x60".toList (Language.ofName []) =
        [⟨1, [], ['x']⟩]) ∧
    ¬ ∀ tag format, Config.validate ⟨tag, [], format⟩ ≠ .ok () ↔
      ∀ text, extractBlocks text (Language.ofName tag) = [] := by
  have hinvalid : Config.validate ⟨"r s".toList, [], .records⟩ ≠ .ok () := by
    decide +kernel
  have hblocks : extractBlocks "\x60\x60\x60r s\nx\n\x60\x60\x60".toList
      (Language.ofName "r s".toList) = [⟨1, [], ['x']⟩] := by
    decide +kernel
  refine ⟨⟨hinvalid, hblocks⟩, ?_, ?_, ?_⟩
  · decide +kernel
  · decide +kernel
  · intro h
    have hnone := (h "r s".toList .records).mp hinvalid "\x60\x60\x60r s\nx\n\x60\x60\x60".toList
    rw [hblocks] at hnone
    cases hnone

end FencedCode
