import FencedCode.Proofs.Language.Grammar
import FencedCode.Proofs.Scan.Layout
import Mathlib.Data.Set.Basic

/-!
# Languages and their sets of tags

Of the name and the markers that a language is given nothing counts but a set, that of the tags they
stand for: those without a comma, in small letters (`tagSet`). Their order, their case and how often
they are given do not matter. Conversely each tag can be told from the lines that the language opens
(`mem_tagSet_iff`) and, if a text can hold it, from the blocks that are extracted, since a document
that is nothing but its fence has one block or none (`extractBlocks_fence_append`).

A scan asks its language about lines and nothing else, so languages that agree on the lines of a
document find the same blocks in it (`scanLines_congr`).
-/
namespace FencedCode

/-! ## Scans of languages that agree -/

namespace Scan

section

variable {first second : Language} {lines : List Text}

/-- A step depends on the language only through what it says of the line. -/
theorem State.step_congr {line : Text} (h : first.opening? line = second.opening? line)
    (number : Nat) (state : State) :
    state.step first number line = state.step second number line := by
  simp only [State.step, h]

/-- Languages that agree on lines close the same blocks there and come to the same state. -/
theorem trace_congr (h : ∀ line ∈ lines, first.opening? line = second.opening? line) (taken : Nat)
    (state : State) :
    (trace first lines taken state).closed = (trace second lines taken state).closed ∧
      (trace first lines taken state).state = (trace second lines taken state).state := by
  induction lines generalizing taken state with
  | nil => exact ⟨rfl, rfl⟩
  | cons line lines ih =>
    obtain ⟨hline, hlines⟩ := List.forall_mem_cons.mp h
    have hstep := State.step_congr hline (taken + 1) state
    obtain ⟨hclosed, hstate⟩ := ih hlines (taken + 1) (state.step first (taken + 1) line).1
    rw [trace_cons, trace_cons, ← hstep]
    exact ⟨by simp only [Trace.after, hclosed], hstate⟩

/-- So languages that agree on all lines give the same blocks. -/
theorem scanLines_congr (h : ∀ line ∈ lines, first.opening? line = second.opening? line) :
    (scanLines first lines).1 = (scanLines second lines).1 := by
  obtain ⟨hclosed, hstate⟩ := trace_congr h 0 .initial
  rw [scanLines_eq, scanLines_eq, Trace.blocks, Trace.blocks, hclosed, hstate]

end

end Scan

namespace Language

open Scan

/-! ## Tags -/

/-- The tags that markers stand for: without those that hold a comma, and in small letters. -/
def tagSet (given : List Text) : Set Text :=
  {tag | ∃ marker ∈ given, ',' ∉ marker ∧ marker.foldCase = tag}

section

variable {name other tag line : Text} {given markers others : List Text}

/-- The tags are the given texts in small letters, those with a comma left out. -/
theorem mem_tagSet_iff_mem_map :
    tag ∈ tagSet given ↔ tag ∈ given.map Text.foldCase ∧ ',' ∉ tag := by
  rw [List.mem_map]
  constructor
  · rintro ⟨marker, hmem, hcomma, rfl⟩
    exact ⟨⟨marker, hmem, rfl⟩, mt (Text.mem_foldCase_iff (by decide)).mp hcomma⟩
  · rintro ⟨⟨marker, hmem, rfl⟩, hcomma⟩
    exact ⟨marker, hmem, mt (Text.mem_foldCase_iff (by decide)).mpr hcomma, rfl⟩

/-- A language has the tags that are in the set when made small. -/
theorem hasTag_withMarkers_iff_mem_tagSet (hcomma : ',' ∉ tag) :
    (withMarkers name markers).hasTag tag = true ↔ tag.foldCase ∈ tagSet (name :: markers) := by
  rw [hasTag_withMarkers]
  constructor
  · rintro ⟨marker, hmem, hsame⟩
    exact ⟨marker, hmem, mt (Text.mem_iff_of_sameFold (by decide) hsame).mp hcomma,
      Text.sameFold_iff.mp hsame⟩
  · rintro ⟨marker, hmem, -, hsame⟩
    exact ⟨marker, hmem, Text.sameFold_iff.mpr hsame⟩

/-- What is in the set can be told from the lines that the language opens. -/
theorem mem_tagSet_iff :
    tag ∈ tagSet (name :: markers) ↔
      tag.foldCase = tag ∧ ',' ∉ tag ∧
        (withMarkers name markers).opening? (fence ++ tag) = some [] := by
  rw [← openingFence_none]
  constructor
  · intro htag
    have hcomma := (mem_tagSet_iff_mem_map.mp htag).2
    obtain ⟨marker, -, -, hfold⟩ := id htag
    have hsmall : tag.foldCase = tag := by rw [← hfold, Text.foldCase_foldCase]
    refine ⟨hsmall, hcomma, ?_⟩
    rw [opening?_openingFence hcomma,
      if_pos ((hasTag_withMarkers_iff_mem_tagSet hcomma).mpr (by rwa [hsmall]))]
    rfl
  · rintro ⟨hsmall, hcomma, hopening⟩
    rw [opening?_openingFence hcomma, Option.ite_none_right_eq_some] at hopening
    rw [← hsmall]
    exact (hasTag_withMarkers_iff_mem_tagSet hcomma).mp hopening.1

/-- Languages agree on a line if their sets do on the tag that it holds. -/
theorem opening?_eq_of_tagSet
    (h : ∀ tag written, line = openingFence tag written →
      (tag.foldCase ∈ tagSet (name :: markers) ↔ tag.foldCase ∈ tagSet (other :: others))) :
    (withMarkers name markers).opening? line = (withMarkers other others).opening? line := by
  -- every other line is prose to both
  by_cases hline : isFenceLine line = true
  · obtain ⟨info, rfl⟩ := isFenceLine_iff.mp hline
    obtain ⟨tag, written, hcomma, rfl⟩ := exists_eq_append_elim info
    have htag := h tag written rfl
    rw [← hasTag_withMarkers_iff_mem_tagSet hcomma, ← hasTag_withMarkers_iff_mem_tagSet hcomma,
      ← Bool.eq_iff_iff] at htag
    rw [← openingFence, opening?_openingFence hcomma, opening?_openingFence hcomma, htag]
  · rw [opening?, if_neg hline, opening?, if_neg hline]

/-! ## Texts -/

/-- A document that is nothing but the fence of a tag. -/
theorem extractBlocks_fence_append (language : Language) (hone : OneLine tag) (hcomma : ',' ∉ tag) :
    extractBlocks (fence ++ tag) language =
      if language.hasTag tag then [⟨1, [], []⟩] else [] := by
  have hline : OneLine (fence ++ tag) := oneLine_append.mpr ⟨by decide, hone⟩
  have hlines : (Document.ofText (['\n'].intercalate [fence ++ tag])).lines = [fence ++ tag] :=
    Document.lines_ofText_intercalate (List.cons_ne_nil _ _)
      fun line hmem => List.mem_singleton.mp hmem ▸ hline
  have hopening :
      language.opening? (fence ++ tag) = if language.hasTag tag then some [] else none :=
    openingFence_none tag ▸ opening?_openingFence hcomma none
  rw [List.intercalate_singleton] at hlines
  -- one step of the scan, with no line to follow
  rw [extractBlocks, extract, hlines, scanLines_eq, trace_cons, Trace.blocks_after]
  by_cases htag : language.hasTag tag = true
  · rw [if_pos htag] at hopening ⊢
    rw [State.step_opening rfl hopening]
    rfl
  · rw [if_neg htag] at hopening ⊢
    rw [State.step_prose rfl hopening]
    rfl

/-- A tag that a text can hold is in the set exactly if it opens a block there. -/
theorem mem_tagSet_iff_extractBlocks (hone : OneLine tag) :
    tag ∈ tagSet (name :: markers) ↔
      tag.foldCase = tag ∧ ',' ∉ tag ∧
        extractBlocks (fence ++ tag) (withMarkers name markers) = [⟨1, [], []⟩] := by
  rw [mem_tagSet_iff]
  refine and_congr_right fun _ => and_congr_right fun hcomma => ?_
  rw [extractBlocks_fence_append _ hone hcomma, ← openingFence_none, opening?_openingFence hcomma]
  split <;> simp

/-- A tag on one line is seen in the text that is its fence alone. -/
theorem mem_sep_tagSet_iff :
    tag ∈ {tag ∈ tagSet (name :: markers) | OneLine tag} ↔
      OneLine tag ∧ tag.foldCase = tag ∧ ',' ∉ tag ∧
        extractBlocks (fence ++ tag) (withMarkers name markers) = [⟨1, [], []⟩] := by
  rw [Set.mem_ofPred_eq, and_comm]
  exact and_congr_right mem_tagSet_iff_extractBlocks

/-- A tag that one language has and another has not, in a text that shows it. -/
theorem extractBlocks_of_mem_of_not_mem (htag : tag ∈ tagSet (name :: markers))
    (hnot : tag ∉ tagSet (other :: others)) (hone : OneLine tag) :
    extractBlocks (fence ++ tag) (withMarkers name markers) = [⟨1, [], []⟩] ∧
      extractBlocks (fence ++ tag) (withMarkers other others) = [] := by
  obtain ⟨hsmall, hcomma, hblocks⟩ := (mem_tagSet_iff_extractBlocks hone).mp htag
  refine ⟨hblocks, ?_⟩
  rw [← hsmall, ← hasTag_withMarkers_iff_mem_tagSet hcomma] at hnot
  rw [extractBlocks_fence_append _ hone hcomma, if_neg hnot]

end

section

variable (name other : Text) (markers others : List Text)

/-- Languages agree on all lines exactly if they have the same tags. -/
theorem opening?_eq_iff_tagSet_eq :
    (∀ line, (withMarkers name markers).opening? line = (withMarkers other others).opening? line) ↔
      tagSet (name :: markers) = tagSet (other :: others) := by
  constructor
  · intro h
    ext tag
    rw [mem_tagSet_iff, mem_tagSet_iff, h]
  · intro h line
    exact opening?_eq_of_tagSet fun tag written _ => by rw [h]

/-- They agree on all texts exactly if they have the same tags that a line can hold. -/
theorem extractBlocks_eq_iff_tagSet_eq :
    (∀ text, extractBlocks text (withMarkers name markers) =
        extractBlocks text (withMarkers other others)) ↔
      {tag ∈ tagSet (name :: markers) | OneLine tag} =
        {tag ∈ tagSet (other :: others) | OneLine tag} := by
  constructor
  · intro h
    ext tag
    rw [mem_sep_tagSet_iff, mem_sep_tagSet_iff, h]
  · intro h text
    refine scanLines_congr fun line hmem => opening?_eq_of_tagSet fun tag written hline => ?_
    -- the lines of a document hold no line ends, so neither does the tag
    have hone : OneLine (openingFence tag written) := hline ▸ Document.oneLine_of_mem_lines hmem
    obtain ⟨htag, -⟩ := Layout.oneLine_openingFence.mp hone
    have hfold : OneLine tag.foldCase :=
      ⟨mt (Text.mem_foldCase_iff (by decide)).mp htag.1,
        mt (Text.mem_foldCase_iff (by decide)).mp htag.2⟩
    have hsets := Set.ext_iff.mp h tag.foldCase
    simpa only [Set.mem_ofPred_eq, hfold, and_true] using hsets

end

/-- **A language is its set of tags.** Two languages agree on all lines exactly if they have the
same tags, and give the same blocks of all texts exactly if they have the same tags among those that
a text can hold. So it does not matter in which order, how often and in which case the tags are
given and which of them is the name; and a text that is nothing but the fence of a tag tells a
language that has the tag from one that has not. A language known by its name alone is one without
further markers. -/
theorem agree_iff_tagSet_eq (name other : Text) (markers others : List Text) :
    let first := withMarkers name markers
    let second := withMarkers other others
    ((∀ line, first.opening? line = second.opening? line) ↔
      tagSet (name :: markers) = tagSet (other :: others)) ∧
    ((∀ text, extractBlocks text first = extractBlocks text second) ↔
      {tag ∈ tagSet (name :: markers) | OneLine tag} =
        {tag ∈ tagSet (other :: others) | OneLine tag}) ∧
    ((∀ tag, tag ∈ (name :: markers).map Text.foldCase ↔
        tag ∈ (other :: others).map Text.foldCase) →
      (∀ line, first.opening? line = second.opening? line) ∧
        ∀ text, extractBlocks text first = extractBlocks text second) ∧
    (∀ tag, tag ∈ tagSet (name :: markers) → tag ∉ tagSet (other :: others) → OneLine tag →
      extractBlocks (fence ++ tag) first = [⟨1, [], []⟩] ∧
        extractBlocks (fence ++ tag) second = []) ∧
    withMarkers name [] = ofName name := by
  intro first second
  refine ⟨opening?_eq_iff_tagSet_eq name other markers others,
    extractBlocks_eq_iff_tagSet_eq name other markers others, ?_,
    fun tag htag hnot hone => extractBlocks_of_mem_of_not_mem htag hnot hone, withMarkers_nil name⟩
  intro h
  have hsets : tagSet (name :: markers) = tagSet (other :: others) := by
    ext tag
    rw [mem_tagSet_iff_mem_map, mem_tagSet_iff_mem_map, h]
  exact ⟨(opening?_eq_iff_tagSet_eq name other markers others).mpr hsets,
    (extractBlocks_eq_iff_tagSet_eq name other markers others).mpr (by rw [hsets])⟩

/-- Name and marker change places, case and number, and a marker with a comma comes in the place of
one that counts. -/
theorem agree_iff_tagSet_eq_swapped :
    let first := withMarkers "Rust".toList ["rs".toList, "RUST".toList]
    let second := withMarkers "RS".toList ["rust".toList]
    let third := withMarkers "rust".toList ["rs,x".toList]
    (first.opening? (fence ++ "Rs,x".toList) = second.opening? (fence ++ "Rs,x".toList) ∧
      extractBlocks (fence ++ "rUST\r\nx".toList) first =
        extractBlocks (fence ++ "rUST\r\nx".toList) second) ∧
    ("rs".toList ∈ tagSet ["Rust".toList, "rs".toList, "RUST".toList] ∧
      "rs".toList ∉ tagSet ["rust".toList, "rs,x".toList] ∧ OneLine "rs".toList ∧
      extractBlocks (fence ++ "rs".toList) first = [⟨1, [], []⟩] ∧
      extractBlocks (fence ++ "rs".toList) third = []) := by
  intro first second third
  obtain ⟨-, -, hsame, -, -⟩ := agree_iff_tagSet_eq "Rust".toList "RS".toList
    ["rs".toList, "RUST".toList] ["rust".toList]
  obtain ⟨-, -, -, hother, -⟩ := agree_iff_tagSet_eq "Rust".toList "rust".toList
    ["rs".toList, "RUST".toList] ["rs,x".toList]
  obtain ⟨hlines, htexts⟩ := hsame fun tag => by
    have hfirst : ["Rust".toList, "rs".toList, "RUST".toList].map Text.foldCase =
        ["rust".toList, "rs".toList, "rust".toList] := by decide
    have hsecond : ["RS".toList, "rust".toList].map Text.foldCase =
        ["rs".toList, "rust".toList] := by decide
    rw [hfirst, hsecond]
    simp only [List.mem_cons, List.not_mem_nil, or_false]
    tauto
  have hmem : "rs".toList ∈ tagSet ["Rust".toList, "rs".toList, "RUST".toList] :=
    mem_tagSet_iff_mem_map.mpr (by decide)
  have hnot : "rs".toList ∉ tagSet ["rust".toList, "rs,x".toList] :=
    mt mem_tagSet_iff_mem_map.mp (by decide)
  exact ⟨⟨hlines _, htexts _⟩, hmem, hnot, by decide, hother _ hmem hnot (by decide)⟩

end Language

end FencedCode
