import FencedCode.Proofs.Document.Newlines
import FencedCode.Proofs.Scan.Restart

/-!
# Scans of concatenated documents

A scan of lines and then further lines is the scan of the first lines, followed by that of the
others with their line numbers shifted, as long as no block is open in between. A block that is open
there (`openAfter`) takes in the further lines up to the first fence line, which decides what
becomes of it, and after that line the scan starts anew.

For texts the same holds of a cut at a newline, as a text that ends in no carriage return has all
its line ends to itself (`lines_ofText_append`).
-/
namespace FencedCode.Scan

/-- The blocks of lines that a fence closes. -/
def closedBlocks (language : Language) (lines : List Text) : List Block :=
  (trace language lines 0 .initial).closed

/-- The block that is open after lines, if one is. -/
def openAfter (language : Language) (lines : List Text) : Option OpenBlock :=
  (trace language lines 0 .initial).state.openBlock?

/-- The blocks of lines are those that a fence closes and the one that is left open. -/
theorem blocks_eq_closed_append (language : Language) (lines : List Text) :
    (scanLines language lines).1 =
      closedBlocks language lines ++
        ((openAfter language lines).map OpenBlock.close).toList := by
  rw [scanLines_eq]
  rfl

/-- The blocks of concatenated lines are those that a fence closes in the first lines and those that
come of the further lines from there. -/
theorem blocks_append (language : Language) (lines more : List Text) :
    (scanLines language (lines ++ more)).1 =
      closedBlocks language lines ++
        (trace language more lines.length (trace language lines 0 .initial).state).blocks := by
  rw [scanLines_eq, trace_append, Trace.blocks_followedBy, Nat.zero_add]
  rfl

/-! ## Concatenation -/

section

variable {language : Language} {lines : List Text}

/-- Where no block is open, the further lines are scanned for themselves. -/
theorem blocks_append_of_none (h : openAfter language lines = none) (more : List Text) :
    (scanLines language (lines ++ more)).1 =
      (scanLines language lines).1 ++
        (scanLines language more).1.map (Block.shift lines.length) := by
  have hclosed : (scanLines language lines).1 = closedBlocks language lines := by
    rw [blocks_eq_closed_append, h]
    exact List.append_nil _
  rw [blocks_append, blocks_trace_outside h, hclosed]

/-- On texts, a cut at a newline is one between lines. -/
theorem extractBlocks_append {text : Text} (hlast : text.getLast? ≠ some '\r')
    (hopen : openAfter language (Document.ofText text).lines = none) (rest : Text) :
    extractBlocks (text ++ '\n' :: rest) language =
      extractBlocks text language ++
        (extractBlocks rest language).map (Block.shift (Document.ofText text).lines.length) := by
  have hscan (t : Text) :
      extractBlocks t language = (scanLines language (Document.ofText t).lines).1 := rfl
  rw [hscan, Document.lines_ofText_append hlast, blocks_append_of_none hopen, ← hscan, ← hscan]

end

/-- **Scans compose.** The blocks of lines are those that a fence closes and the one that is left
open. If none is left open, further lines give their own blocks, shifted. If one is, it takes in the
further lines up to the first fence line and is complete if that line is bare or missing; the lines
after it give their own blocks, shifted. Either way the closed blocks stay as they are. On texts,
this holds of a cut at a newline that no carriage return precedes. -/
theorem scanLines_append (language : Language) :
    (∀ lines, (scanLines language lines).1 =
      closedBlocks language lines ++
        ((openAfter language lines).map OpenBlock.close).toList) ∧
    (∀ lines more, openAfter language lines = none →
      (scanLines language (lines ++ more)).1 =
        (scanLines language lines).1 ++
          (scanLines language more).1.map (Block.shift lines.length)) ∧
    (∀ lines more start attributes body,
      openAfter language lines = some ⟨start, attributes, body⟩ →
      (more.findIdx? isFenceLine = none →
        (scanLines language (lines ++ more)).1 =
          closedBlocks language lines ++
            [⟨start, attributes, ['\n'].intercalate (body ++ more)⟩]) ∧
      (∀ j, more.findIdx? isFenceLine = some j → more[j]? = some fence →
        (scanLines language (lines ++ more)).1 =
          closedBlocks language lines ++
            [⟨start, attributes, ['\n'].intercalate (body ++ more.take j)⟩] ++
            (scanLines language (more.drop (j + 1))).1.map
              (Block.shift (lines.length + j + 1))) ∧
      (∀ j, more.findIdx? isFenceLine = some j → more[j]? ≠ some fence →
        (scanLines language (lines ++ more)).1 =
          closedBlocks language lines ++
            (scanLines language (more.drop (j + 1))).1.map
              (Block.shift (lines.length + j + 1)))) ∧
    (∀ lines more, closedBlocks language lines <+: (scanLines language (lines ++ more)).1) ∧
    ∀ text rest : Text, text.getLast? ≠ some '\r' →
      openAfter language (Document.ofText text).lines = none →
      extractBlocks (text ++ '\n' :: rest) language =
        extractBlocks text language ++
          (extractBlocks rest language).map
            (Block.shift (Document.ofText text).lines.length) := by
  refine ⟨blocks_eq_closed_append language, fun lines more h => blocks_append_of_none h more, ?_,
    ?_, fun text rest hlast hopen => extractBlocks_append hlast hopen rest⟩
  · -- a block is open: no fence line comes, or the first one is bare, or it is not
    intro lines more start attributes body h
    refine ⟨fun hnone => ?_, fun j hj hfence => ?_, fun j hj hfence => ?_⟩
    · rw [blocks_append, blocks_trace_inside_of_none h hnone]
      rfl
    · rw [blocks_append, blocks_trace_inside h hj, if_pos hfence, ← List.append_assoc]
      rfl
    · rw [blocks_append, blocks_trace_inside h hj, if_neg hfence]
      rfl
  · intro lines more
    rw [blocks_append]
    exact List.prefix_append _ _

/-- Lines with nothing open at their end, and lines that end inside a block which goes on to the end
of the further lines, to a bare fence among them or to another fence line. -/
theorem scanLines_append_opening :
    let language := Language.ofName ['c']
    let done : List Text := [fence ++ ['c'], ['x'], fence]
    let inside : List Text := done ++ [fence ++ ['c', ',', 'a'], []]
    let text : Text := ['\n'].intercalate done
    (openAfter language done = none ∧ text.getLast? ≠ some '\r' ∧
      openAfter language inside = some ⟨4, ['a'], [[]]⟩) ∧
    (scanLines language (done ++ [fence ++ ['c']])).1 = [⟨1, [], ['x']⟩, ⟨4, [], []⟩] ∧
    (scanLines language (inside ++ [['y']])).1 = [⟨1, [], ['x']⟩, ⟨4, ['a'], ['\n', 'y']⟩] ∧
    (scanLines language (inside ++ [['y'], fence, fence ++ ['c']])).1 =
      [⟨1, [], ['x']⟩, ⟨4, ['a'], ['\n', 'y']⟩, ⟨8, [], []⟩] ∧
    (scanLines language (inside ++ [fence ++ ['c'], fence ++ ['c']])).1 =
      [⟨1, [], ['x']⟩, ⟨7, [], []⟩] ∧
    extractBlocks (text ++ '\n' :: (fence ++ ['c'])) language = [⟨1, [], ['x']⟩, ⟨4, [], []⟩] := by
  intro language done inside text
  have hdone : openAfter language done = none := by decide +kernel
  have hinside : openAfter language inside = some ⟨4, ['a'], [[]]⟩ := by decide +kernel
  have htext : text.getLast? ≠ some '\r' := by decide
  have hlines : openAfter language (Document.ofText text).lines = none := by decide +kernel
  obtain ⟨-, hnone, hsome, -, hcut⟩ := scanLines_append language
  obtain ⟨hend, -, -⟩ := hsome inside [['y']] 4 ['a'] [[]] hinside
  obtain ⟨-, hbare, -⟩ := hsome inside [['y'], fence, fence ++ ['c']] 4 ['a'] [[]] hinside
  obtain ⟨-, -, hnested⟩ := hsome inside [fence ++ ['c'], fence ++ ['c']] 4 ['a'] [[]] hinside
  refine ⟨⟨hdone, htext, hinside⟩, ?_, ?_, ?_, ?_, ?_⟩
  · rw [hnone done _ hdone]
    decide +kernel
  · rw [hend (by decide)]
    decide +kernel
  · rw [hbare 1 (by decide) (by decide)]
    decide +kernel
  · rw [hnested 0 (by decide) (by decide)]
    decide +kernel
  · rw [hcut text _ htext hlines]
    decide +kernel

end FencedCode.Scan
