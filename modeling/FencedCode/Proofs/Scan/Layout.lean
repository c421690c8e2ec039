import FencedCode.Proofs.Document.Newlines
import FencedCode.Proofs.Language.Opening
import FencedCode.Proofs.Scan.Restart

/-!
# Documents laid out from items

A document is laid out from items, each a line of prose or a block of the language with its two
fences. Extraction gives back the blocks, each with the line it was laid out on, and leaves no
remark (`extract_text`).

## What is not laid out

Documents may drop blocks or leave one open, but there is nothing more to gain from them: the blocks
of any document are those of a laid-out one (`exists_items`). A block that is dropped gives way to
as many blank lines, and a block that is left open is closed. So what holds of the blocks that can
be laid out holds of all blocks that are ever extracted (`of_mem_blocks`).
-/
namespace FencedCode.Layout

open Scan
open FencedCode.Language

/-- A piece of a document. -/
inductive Item where
  /-- a line outside all blocks -/
  | prose (line : Text)
  /-- a block, its attributes left out together with the comma before them or given -/
  | block (tag : Text) (attributes : Option Text) (body : List Text)
  deriving DecidableEq, Repr

namespace Item

/-- The lines of an item, those of a block with both its fences. -/
def lines : Item → List Text
  | prose line => [line]
  | block tag attributes body => openingFence tag attributes :: (body ++ [fence])

/-- The blocks of an item that stands after `taken` other lines, which are one or none. -/
def blocks (taken : Nat) : Item → List Block
  | prose _ => []
  | block _ attributes body => [⟨taken + 1, attributes.getD [], ['\n'].intercalate body⟩]

/-- An item that can stand in a document as what it is, for the language of a name and markers. -/
inductive Fits (name : Text) (markers : List Text) : Item → Prop
  | prose {line : Text} (hone : OneLine line)
      (hline : (withMarkers name markers).opening? line = none) : Fits name markers (prose line)
  | block {tag : Text} {attributes : Option Text} {body : List Text} (hcomma : ',' ∉ tag)
      (htag : OneLine tag) (hmarker : ∃ marker ∈ name :: markers, marker.sameFold tag = true)
      (hattributes : ∀ given ∈ attributes, OneLine given)
      (hbody : ∀ line ∈ body, OneLine line ∧ isFenceLine line = false) :
      Fits name markers (block tag attributes body)

end Item

/-- The lines of items one after another. -/
def lines (items : List Item) : List Text :=
  items.flatMap Item.lines

/-- The text of items. -/
def text (items : List Item) : Text :=
  ['\n'].intercalate (lines items)

/-- The blocks of items that stand after `taken` other lines. -/
def blocks : Nat → List Item → List Block
  | _, [] => []
  | taken, item :: items => item.blocks taken ++ blocks (taken + item.lines.length) items

section

variable {name : Text} {markers : List Text}

/-! ## Line ends -/

/-- An opening fence holds a line end only if its tag or its attributes do. -/
theorem oneLine_openingFence {tag : Text} {attributes : Option Text} :
    OneLine (openingFence tag attributes) ↔
      OneLine tag ∧ ∀ given ∈ attributes, OneLine given := by
  have hfence : OneLine fence := by decide
  rw [openingFence, oneLine_append, oneLine_append, and_iff_right hfence]
  cases attributes with
  | none => simp [OneLine]
  | some given => simp [oneLine_cons]

/-- No line of an item that fits holds a line end. -/
theorem Item.Fits.oneLine {item : Item} (h : item.Fits name markers) :
    ∀ line ∈ item.lines, OneLine line := by
  intro line hline
  cases h with
  | prose hone _ =>
    rw [List.mem_singleton.mp hline]
    exact hone
  | block _ htag _ hattributes hbody =>
    rcases List.mem_cons.mp hline with rfl | hline
    · exact oneLine_openingFence.mpr ⟨htag, hattributes⟩
    · rcases List.mem_append.mp hline with hline | hline
      · exact (hbody line hline).1
      · rw [List.mem_singleton.mp hline]
        decide

/-! ## From items to blocks -/

/-- An item that fits yields its block, brings about nothing else and leaves no block open. -/
theorem Item.Fits.trace {item : Item} (h : item.Fits name markers) {state : State}
    (hstate : state.openBlock? = none) (taken : Nat) :
    ∃ last, trace (withMarkers name markers) item.lines taken state =
      ⟨item.blocks taken, [], last⟩ ∧ last.openBlock? = none := by
  cases h with
  | prose _ hline =>
    refine ⟨state, ?_, hstate⟩
    rw [lines, trace_cons, State.step_prose hstate hline]
    rfl
  | @block tag attributes body hcomma _ hmarker _ hbody =>
    have hopening : (withMarkers name markers).opening? (openingFence tag attributes) =
        some (attributes.getD []) := by
      rw [opening?_openingFence hcomma, if_pos ((hasTag_withMarkers name markers tag).mpr hmarker)]
    obtain ⟨last, htrace, hlast⟩ := trace_body (withMarkers name markers)
      (State.openBlock?_entered (taken + 1) (attributes.getD [])) (fun l hl => (hbody l hl).2)
      (taken + 1)
    -- the opening fence, the body, the closing fence
    refine ⟨last.close, ?_, State.openBlock?_close last⟩
    rw [lines, trace_cons, State.step_opening hstate hopening, trace_append, htrace, trace_cons,
      State.step_closing hlast]
    rfl

/-- Items that fit yield their blocks, bring about nothing else and leave no block open. -/
theorem trace_lines {items : List Item} (h : ∀ item ∈ items, item.Fits name markers)
    {state : State} (hstate : state.openBlock? = none) (taken : Nat) :
    ∃ last, trace (withMarkers name markers) (lines items) taken state =
      ⟨blocks taken items, [], last⟩ ∧ last.openBlock? = none := by
  induction items generalizing state taken with
  | nil => exact ⟨state, rfl, hstate⟩
  | cons item items ih =>
    obtain ⟨next, hitem, hnext⟩ := (h item List.mem_cons_self).trace hstate taken
    have hrest : ∀ item ∈ items, item.Fits name markers :=
      fun i hi => h i (List.mem_cons_of_mem _ hi)
    obtain ⟨last, hitems, hlast⟩ := ih hrest hnext (taken + item.lines.length)
    refine ⟨last, ?_, hlast⟩
    rw [lines, List.flatMap_cons, trace_append, hitem, ← lines, hitems]
    rfl

/-- The text of items that fit has their lines, or is empty. -/
theorem lines_ofText_text {items : List Item} (h : ∀ item ∈ items, item.Fits name markers)
    (hne : lines items ≠ []) : (Document.ofText (text items)).lines = lines items := by
  refine Document.lines_ofText_intercalate hne fun line hline => ?_
  obtain ⟨item, hitem, hline⟩ := List.mem_flatMap.mp hline
  exact (h item hitem).oneLine line hline

/-- Where there are no lines there are no blocks. -/
theorem blocks_of_lines_eq_nil {items : List Item} (h : lines items = []) (taken : Nat) :
    blocks taken items = [] := by
  cases items with
  | nil => rfl
  | cons item items => cases item <;> cases h

/-- A blank line is prose in every language. -/
theorem Item.Fits.blank : (Item.prose []).Fits name markers :=
  .prose (by decide) rfl

/-- Extraction gives back the blocks of items that fit, and there is nothing to remark. -/
theorem extract_text {items : List Item} (h : ∀ item ∈ items, item.Fits name markers) :
    extract (text items) (withMarkers name markers) = (blocks 0 items, []) := by
  have hmain : ∀ items : List Item, (∀ item ∈ items, item.Fits name markers) → lines items ≠ [] →
      extract (text items) (withMarkers name markers) = (blocks 0 items, []) := by
    intro items h hne
    obtain ⟨last, htrace, hlast⟩ := trace_lines h State.openBlock?_initial 0
    rw [extract, lines_ofText_text h hne, scanLines_eq, htrace, Trace.blocks, Trace.records, hlast]
    simp
  by_cases hne : lines items = []
  · -- the empty text is a document of one blank line
    rw [text, hne, blocks_of_lines_eq_nil hne]
    exact hmain [.prose []] (by simp [Item.Fits.blank]) (by decide)
  · exact hmain items h hne

/-! ## From blocks to items -/

/-- Blocks that come of items that fit and stand after `taken` other lines. -/
def LaidOut (name : Text) (markers : List Text) (taken : Nat) (found : List Block) : Prop :=
  ∃ items : List Item, (∀ item ∈ items, item.Fits name markers) ∧ blocks taken items = found

theorem LaidOut.nil (taken : Nat) : LaidOut name markers taken [] :=
  ⟨[], by simp, rfl⟩

/-- One more item before blocks that are laid out. -/
theorem LaidOut.cons {item : Item} {taken : Nat} {found : List Block}
    (hitem : item.Fits name markers)
    (h : LaidOut name markers (taken + item.lines.length) found) :
    LaidOut name markers taken (item.blocks taken ++ found) := by
  obtain ⟨items, hfits, rfl⟩ := h
  exact ⟨item :: items, List.forall_mem_cons.mpr ⟨hitem, hfits⟩, rfl⟩

/-- Lines that give no block may all be blank. -/
theorem LaidOut.blank {taken : Nat} {found : List Block} (n : Nat)
    (h : LaidOut name markers (taken + n) found) : LaidOut name markers taken found := by
  induction n generalizing taken with
  | zero => exact h
  | succ n ih =>
    rw [← Nat.add_assoc, Nat.add_right_comm] at h
    exact .cons Item.Fits.blank (ih h)

/-- From inside a block, lines give blocks that are laid out, if shorter lines do so from outside.
-/
theorem laidOut_inside {tag : Text} {attributes : Option Text} {lines : List Text} {taken : Nat}
    (hfits : ∀ body : List Text, (∀ line ∈ body, OneLine line ∧ isFenceLine line = false) →
      (Item.block tag attributes body).Fits name markers)
    (hone : ∀ line ∈ lines, OneLine line)
    (hshorter : ∀ rest : List Text, rest.length < lines.length → (∀ line ∈ rest, OneLine line) →
      ∀ taken, LaidOut name markers taken
        ((scanLines (withMarkers name markers) rest).1.map (Block.shift taken))) :
    LaidOut name markers taken (trace (withMarkers name markers) lines (taken + 1)
      (.entered (taken + 1) (attributes.getD []))).blocks := by
  have hopen := State.openBlock?_entered (taken + 1) (attributes.getD [])
  rcases hj : lines.findIdx? isFenceLine with _ | j
  · have hbody := List.findIdx?_eq_none_iff.mp hj
    rw [blocks_trace_inside_of_none hopen hj]
    exact .cons (hfits lines fun l hl => ⟨hone l hl, hbody l hl⟩) (.nil _)
  · obtain ⟨body, line, rest, rfl, -, hbody, hline⟩ := exists_eq_append_of_findIdx? hj
    obtain ⟨hone_body, hone_rest⟩ := List.forall_mem_append.mp hone
    have hlt : rest.length < (body ++ line :: rest).length := by
      rw [List.length_append, List.length_cons]
      omega
    have hrest := hshorter rest hlt (List.forall_mem_cons.mp hone_rest).2
      (taken + 1 + body.length + 1)
    have htaken : taken + 1 + body.length + 1 = taken + (body.length + 2) := by omega
    rw [blocks_trace_body_append hopen hbody hline]
    by_cases hfence : line = fence
    · rw [if_pos hfence]
      refine .cons (hfits body fun l hl => ⟨hone_body l hl, hbody l hl⟩) ?_
      rw [Item.lines, List.length_cons, List.length_append, List.length_singleton, Nat.add_assoc,
        ← htaken]
      exact hrest
    · -- the block is dropped, and as many blank lines take its place
      rw [if_neg hfence, List.nil_append]
      refine .blank (body.length + 2) ?_
      rw [← htaken]
      exact hrest

/-- Lines without line ends in them give blocks that are laid out. -/
theorem laidOut_scanLines (name : Text) (markers lines : List Text)
    (hone : ∀ line ∈ lines, OneLine line) (taken : Nat) :
    LaidOut name markers taken
      ((scanLines (withMarkers name markers) lines).1.map (Block.shift taken)) := by
  -- on the number of lines, as a block takes several of them at once
  induction hlength : lines.length using Nat.strong_induction_on generalizing lines taken with
  | _ n ih =>
    subst hlength
    have hinitial := State.openBlock?_initial
    rw [← blocks_trace_outside hinitial]
    rcases lines with _ | ⟨line, lines⟩
    · exact .nil taken
    obtain ⟨hline, hlines⟩ := List.forall_mem_cons.mp hone
    rw [trace_cons, Trace.blocks_after]
    rcases hopening : (withMarkers name markers).opening? line with _ | attributes
    · rw [State.step_prose hinitial hopening, blocks_trace_outside hinitial]
      exact .cons (.prose hline hopening)
        (ih lines.length (Nat.lt_succ_self _) lines hlines (taken + 1) rfl)
    · obtain ⟨tag, given, hcomma, htag, rfl, rfl⟩ := opening?_eq_some_iff.mp hopening
      obtain ⟨hone_tag, hone_given⟩ := oneLine_openingFence.mp hline
      have hmarker := (hasTag_withMarkers name markers tag).mp htag
      rw [State.step_opening hinitial hopening]
      refine laidOut_inside (fun _ => .block hcomma hone_tag hmarker hone_given) hlines ?_
      exact fun rest hlt hrest taken =>
        ih rest.length (Nat.lt_succ_of_lt hlt) rest hrest taken rfl

/-- What is extracted from any text is laid out. -/
theorem laidOut_extractBlocks (name : Text) (markers : List Text) (text : Text) :
    LaidOut name markers 0 (extractBlocks text (withMarkers name markers)) := by
  have h := laidOut_scanLines name markers (Document.ofText text).lines
    (fun _ hline => Document.oneLine_of_mem_lines hline) 0
  rw [List.map_id'' Block.shift_zero] at h
  exact h

/-! ## What can be laid out -/

/-- The content of a block has the lines of its body, or one blank line. -/
theorem splitOn_intercalate_body {body : List Text} (h : ∀ line ∈ body, OneLine line) :
    (['\n'].intercalate body).splitOn '\n' = if body = [] then [[]] else body := by
  by_cases hbody : body = []
  · rw [if_pos hbody, hbody]
    rfl
  · rw [if_neg hbody, List.splitOn_intercalate '\n' (fun line hline => (h line hline).2) hbody]

/-- The block of an item that fits has no line end in its attributes, no carriage return in its
content and no fence line among the lines of its content. -/
theorem Item.Fits.of_mem_blocks {item : Item} (h : item.Fits name markers) {taken : Nat}
    {found : Block} (hfound : found ∈ item.blocks taken) :
    OneLine found.attributes ∧ '\r' ∉ found.content ∧
      ∀ line ∈ found.content.splitOn '\n', isFenceLine line = false := by
  cases h with
  | prose => cases hfound
  | @block tag attributes body _ _ _ hattributes hbody =>
    rw [List.mem_singleton.mp hfound]
    refine ⟨?_, fun hc => ?_, fun line hline => ?_⟩
    · cases attributes with
      | none =>
        show OneLine []
        decide
      | some given => exact hattributes given rfl
    · obtain ⟨line, hline, hc⟩ := mem_of_mem_intercalate hc (by decide)
      exact (hbody line hline).1.1 hc
    · rw [splitOn_intercalate_body fun l hl => (hbody l hl).1] at hline
      split at hline
      · rw [List.mem_singleton.mp hline]
        decide
      · exact (hbody line hline).2

/-- A block that is laid out keeps line ends and fences out of its attributes and its content. -/
theorem of_mem_blocks {items : List Item} (h : ∀ item ∈ items, item.Fits name markers) {taken : Nat}
    {found : Block} (hfound : found ∈ blocks taken items) :
    OneLine found.attributes ∧ '\r' ∉ found.content ∧
      ∀ line ∈ found.content.splitOn '\n', isFenceLine line = false := by
  induction items generalizing taken with
  | nil => cases hfound
  | cons item items ih =>
    obtain ⟨hitem, hitems⟩ := List.forall_mem_cons.mp h
    rcases List.mem_append.mp hfound with hfound | hfound
    · exact hitem.of_mem_blocks hfound
    · exact ih hitems hfound

end

/-- **Extraction undoes layout, and only what can be laid out is extracted.** The text of items that
fit gives exactly their blocks, each with the line of its opening fence, its attributes as they
stand and its body. The blocks of any text are those of items that fit, so they have no line end in
their attributes, no carriage return in their content and no fence line among its lines. -/
theorem extractBlocks_text_and_image (name : Text) (markers : List Text) :
    (∀ items : List Item, (∀ item ∈ items, item.Fits name markers) →
      extractBlocks (text items) (withMarkers name markers) = blocks 0 items) ∧
    (∀ source : Text, ∃ items : List Item, (∀ item ∈ items, item.Fits name markers) ∧
      blocks 0 items = extractBlocks source (withMarkers name markers)) ∧
    ∀ source : Text, ∀ found ∈ extractBlocks source (withMarkers name markers),
      OneLine found.attributes ∧ '\r' ∉ found.content ∧
        ∀ line ∈ found.content.splitOn '\n', isFenceLine line = false := by
  refine ⟨fun items h => ?_, laidOut_extractBlocks name markers, fun source found hfound => ?_⟩
  · rw [extractBlocks, extract_text h]
  · obtain ⟨items, hfits, hitems⟩ := laidOut_extractBlocks name markers source
    rw [← hitems] at hfound
    exact of_mem_blocks hfits hfound

/-- Prose that is almost a fence, a stray fence, a block without a body, its tag in capitals, and a
block of the other tag with commas in its attributes and blank lines in its body. -/
theorem extractBlocks_text_prose_and_blocks :
    extractBlocks
      (text [.prose [' ', '\x60', '\x60', '\x60', 'r'], .prose fence, .block ['R', 'S'] none [],
        .block ['r'] (some ['a', ',', 'b']) [[], [' ', '\x60', '\x60', '\x60'], []],
        .block ['r'] (some []) [[]]])
      (withMarkers ['r'] [['r', 's']]) =
    [⟨3, [], []⟩, ⟨5, ['a', ',', 'b'], ['\n', ' ', '\x60', '\x60', '\x60', '\n']⟩,
      ⟨10, [], []⟩] := by
  rw [(extractBlocks_text_and_image ['r'] [['r', 's']]).1]
  · rfl
  · simp only [List.forall_mem_cons]
    refine ⟨.prose (by decide) (by decide), .prose (by decide) (by decide),
      .block (by decide) (by decide) (by decide) (by decide) (by decide),
      .block (by decide) (by decide) (by decide) (by decide) (by decide),
      .block (by decide) (by decide) (by decide) (by decide) (by decide), by simp⟩

end FencedCode.Layout
