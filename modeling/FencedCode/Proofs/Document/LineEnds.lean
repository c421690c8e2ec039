import FencedCode.Proofs.Document.Newlines
import FencedCode.Scan.Scanner
import Mathlib.Data.List.Chain

/-!
# Texts and the ways to write them

`Written` is a text together with a reading of it: its lines, each but the last with the line end
that stands after it. Such a reading is faithful when no two line ends run together, which happens
when a lone carriage return stands before an empty line that a lone newline ends
(`Written.Faithful`). The document of a text has the lines of any faithful reading, so neither it
nor a scan can tell how the line ends are written, and every text has a faithful reading
(`exists_faithful`).
-/
namespace FencedCode

/-- The ways in which a line end is written. -/
inductive LineEnd where
  | newline
  | pair
  | carriageReturn
  deriving DecidableEq, Repr

/-- A line end as it stands in a text. -/
def LineEnd.text : LineEnd → Text
  | newline => ['\n']
  | pair => ['\r', '\n']
  | carriageReturn => ['\r']

/-- A text as it is written line by line. -/
structure Written where
  /-- the lines that end, each with its line end -/
  ended : List (Text × LineEnd)
  /-- the last line, which nothing ends -/
  last : Text
  deriving DecidableEq, Repr

namespace Written

/-- The lines, at least one. -/
def lines (w : Written) : List Text :=
  w.ended.map Prod.fst ++ [w.last]

/-- The text that is written. -/
def text (w : Written) : Text :=
  w.ended.flatMap (fun (line, lineEnd) => line ++ lineEnd.text) ++ w.last

/-- Two line ends that would be read as one: a lone carriage return, and a lone newline right
after it. -/
def RunTogether (a b : Text × LineEnd) : Prop :=
  a.2 = .carriageReturn ∧ b = ([], .newline)

instance (a b : Text × LineEnd) : Decidable (RunTogether a b) :=
  inferInstanceAs (Decidable (_ ∧ _))

/-- The lines hold no line ends, and no two line ends run together. -/
structure Faithful (w : Written) : Prop where
  oneLine : ∀ line ∈ w.lines, OneLine line
  apart : w.ended.IsChain fun a b => ¬ RunTogether a b

/-- The written text of one more line before the others. -/
def cons (line : Text) (lineEnd : LineEnd) (w : Written) : Written where
  ended := (line, lineEnd) :: w.ended
  last := w.last

/-- A line that is written in front comes first. -/
theorem lines_cons (line : Text) (lineEnd : LineEnd) (w : Written) :
    (w.cons line lineEnd).lines = line :: w.lines :=
  rfl

/-- So do its text and its line end. -/
theorem text_cons (line : Text) (lineEnd : LineEnd) (w : Written) :
    (w.cons line lineEnd).text = line ++ (lineEnd.text ++ w.text) := by
  simp [text, cons]

/-- A written text is its last line, or it has one more line than another. -/
@[elab_as_elim]
theorem consInduction {motive : Written → Prop} (last : ∀ line, motive ⟨[], line⟩)
    (cons : ∀ line lineEnd w, motive w → motive (w.cons line lineEnd)) (w : Written) :
    motive w := by
  obtain ⟨ended, line⟩ := w
  induction ended with
  | nil => exact last line
  | cons first ended ih => exact cons first.1 first.2 ⟨ended, line⟩ ih

theorem faithful_last {line : Text} : Faithful ⟨[], line⟩ ↔ OneLine line :=
  ⟨fun h => h.oneLine line (by simp [lines]), fun h => ⟨by simpa [lines] using h, .nil⟩⟩

/-- A line in front has to be one line, and its end must not run together with what follows. -/
theorem faithful_cons {line : Text} {lineEnd : LineEnd} {w : Written} :
    (w.cons line lineEnd).Faithful ↔
      OneLine line ∧ (∀ b ∈ w.ended.head?, ¬ RunTogether (line, lineEnd) b) ∧ w.Faithful := by
  constructor
  · intro h
    obtain ⟨hfirst, hapart⟩ := List.isChain_cons.mp h.apart
    have hline := h.oneLine
    rw [lines_cons, List.forall_mem_cons] at hline
    exact ⟨hline.1, hfirst, hline.2, hapart⟩
  · rintro ⟨hline, hfirst, hw⟩
    refine ⟨?_, List.isChain_cons.mpr ⟨hfirst, hw.apart⟩⟩
    rw [lines_cons, List.forall_mem_cons]
    exact ⟨hline, hw.oneLine⟩

/-! ## The document of a written text -/

/-- A written line end becomes one newline, unless it is half a pair. -/
theorem unifyNewlines_lineEnd {lineEnd : LineEnd} {rest : Text}
    (h : lineEnd = .carriageReturn → rest.head? ≠ some '\n') :
    unifyNewlines (lineEnd.text ++ rest) = '\n' :: unifyNewlines rest := by
  cases lineEnd with
  | newline => exact unifyNewlines_cons (by decide) rest
  | pair => exact unifyNewlines_return_newline rest
  | carriageReturn => exact unifyNewlines_return (h rfl)

/-- A written text begins with a newline only if its first line is empty and ends in a lone
newline. -/
theorem head?_text_ne {w : Written} (h : w.Faithful)
    (hfirst : ∀ b ∈ w.ended.head?, b ≠ ([], .newline)) : w.text.head? ≠ some '\n' := by
  induction w using consInduction with
  | last line =>
    intro hhead
    exact (faithful_last.mp h).2 (List.mem_of_head? hhead)
  | cons line lineEnd w =>
    rw [text_cons]
    -- an empty line shows its line end, any other its first character
    cases line with
    | nil =>
      cases lineEnd with
      | newline => exact absurd rfl (hfirst ([], .newline) rfl)
      | pair => simp [LineEnd.text]
      | carriageReturn => simp [LineEnd.text]
    | cons c line =>
      intro hhead
      exact (faithful_cons.mp h).1.2 (List.mem_of_head? hhead)

/-- Every written line end becomes a newline. -/
theorem unifyNewlines_text {w : Written} (h : w.Faithful) :
    unifyNewlines w.text = ['\n'].intercalate w.lines := by
  induction w using consInduction with
  | last line => simpa [text, lines] using unifyNewlines_eq_self (faithful_last.mp h).1
  | cons line lineEnd w ih =>
    obtain ⟨hline, hfirst, hw⟩ := faithful_cons.mp h
    have hhead : lineEnd = .carriageReturn → w.text.head? ≠ some '\n' := fun hend =>
      head?_text_ne hw fun b hb he => hfirst b hb ⟨hend, he⟩
    have hlast : line.getLast? = some '\r' →
        (lineEnd.text ++ w.text).head? ≠ some '\n' := fun hmem =>
      absurd (List.mem_of_getLast? hmem) hline.1
    have hne : w.lines ≠ [] := List.append_ne_nil_of_right_ne_nil _ (List.cons_ne_nil _ _)
    rw [text_cons, unifyNewlines_append hlast, unifyNewlines_eq_self hline.1,
      unifyNewlines_lineEnd hhead, ih hw, lines_cons, List.intercalate_cons_of_ne_nil hne]
    simp

/-- The document of a written text has the lines that were written. -/
theorem lines_ofText_text {w : Written} (h : w.Faithful) :
    (Document.ofText w.text).lines = w.lines := by
  have hne : w.lines ≠ [] := List.append_ne_nil_of_right_ne_nil _ (List.cons_ne_nil _ _)
  rw [Document.lines, Document.ofText, unifyNewlines_text h]
  exact List.splitOn_intercalate '\n' (fun line hline => (h.oneLine line hline).2) hne

/-! ## Every text is written somehow -/

/-- The written text of one more character before the others, in their first line. -/
def prepend (c : Char) : Written → Written
  | ⟨[], last⟩ => ⟨[], c :: last⟩
  | ⟨(line, lineEnd) :: ended, last⟩ => ⟨(c :: line, lineEnd) :: ended, last⟩

/-- A character in front of the first line is in front of the text. -/
theorem text_prepend (c : Char) (w : Written) : (w.prepend c).text = c :: w.text := by
  induction w using consInduction with
  | last line => rfl
  | cons line lineEnd w =>
    show (w.cons (c :: line) lineEnd).text = _
    rw [text_cons, text_cons]
    rfl

/-- A character that is no part of a line end joins the first line. -/
theorem Faithful.prepend {c : Char} {w : Written} (h : w.Faithful) (hr : c ≠ '\r')
    (hn : c ≠ '\n') : (w.prepend c).Faithful := by
  induction w using consInduction with
  | last line => exact faithful_last.mpr ((faithful_last.mp h).cons hr hn)
  | cons line lineEnd w =>
    obtain ⟨hline, hfirst, hw⟩ := faithful_cons.mp h
    exact faithful_cons.mpr ⟨hline.cons hr hn, hfirst, hw⟩

/-- A carriage return before a faithful reading is a line end of its own, unless an empty line that
a lone newline ends comes first: then it makes that newline a pair. -/
theorem exists_faithful_return {w : Written} (h : w.Faithful) :
    ∃ v : Written, v.Faithful ∧ v.text = '\r' :: w.text := by
  by_cases hfirst : ∀ b ∈ w.ended.head?, ¬ RunTogether ([], .carriageReturn) b
  · refine ⟨w.cons [] .carriageReturn, faithful_cons.mpr ⟨by decide, hfirst, h⟩, ?_⟩
    rw [text_cons]
    rfl
  · -- the newline that would be run into belongs to the first line
    induction w using consInduction with
    | last line => simp at hfirst
    | cons line lineEnd w =>
      have hrun : RunTogether ([], .carriageReturn) (line, lineEnd) := by
        simpa [cons] using hfirst
      obtain ⟨rfl, rfl⟩ := Prod.mk.inj hrun.2
      refine ⟨w.cons [] .pair, faithful_cons.mpr ⟨by decide, ?_, (faithful_cons.mp h).2.2⟩, ?_⟩
      · rintro b - ⟨hend, -⟩
        cases hend
      · rw [text_cons, text_cons]
        rfl

/-- Every text has a faithful reading. -/
theorem exists_faithful (text : Text) : ∃ w : Written, w.Faithful ∧ w.text = text := by
  -- from the end on: a carriage return is read with what has been read behind it
  induction text with
  | nil => exact ⟨⟨[], []⟩, faithful_last.mpr (by decide), rfl⟩
  | cons c text ih =>
    obtain ⟨w, hw, rfl⟩ := ih
    by_cases hn : c = '\n'
    · subst hn
      refine ⟨w.cons [] .newline, faithful_cons.mpr ⟨by decide, ?_, hw⟩, ?_⟩
      · rintro b - ⟨hend, -⟩
        cases hend
      · rw [text_cons]
        rfl
    · by_cases hr : c = '\r'
      · subst hr
        exact exists_faithful_return hw
      · exact ⟨w.prepend c, hw.prepend hr hn, text_prepend c w⟩

end Written

/-! ## Extraction -/

/-- **How line ends are written does not matter.** The document of a faithfully written text has
exactly the written lines, and extraction from the text is a scan over these lines. So texts with
the same lines have equal documents, blocks and remarks, and every text is such a text. -/
theorem extract_written_text :
    (∀ w : Written, w.Faithful →
      (Document.ofText w.text).lines = w.lines ∧
        ∀ language, extractBlocks w.text language =
          (BlockSource.drain (Scanner.ofLines language w.lines)).1) ∧
    (∀ v w : Written, v.Faithful → w.Faithful → v.lines = w.lines →
      Document.ofText v.text = Document.ofText w.text ∧
        ∀ language, extract v.text language = extract w.text language) ∧
    ∀ text : Text, ∃ w : Written,
      w.Faithful ∧ w.text = text ∧ w.lines = (Document.ofText text).lines := by
  refine ⟨fun w hw => ⟨Written.lines_ofText_text hw, fun language => ?_⟩,
    fun v w hv hw hlines => ?_, fun text => ?_⟩
  · rw [extractBlocks, extract, Written.lines_ofText_text hw]
    rfl
  · have hdocument : Document.ofText v.text = Document.ofText w.text := by
      apply Document.ext_lines
      rw [Written.lines_ofText_text hv, Written.lines_ofText_text hw, hlines]
    exact ⟨hdocument, fun language => by rw [extract, hdocument, extract]⟩
  · obtain ⟨w, hw, rfl⟩ := Written.exists_faithful text
    exact ⟨w, hw, rfl, (Written.lines_ofText_text hw).symm⟩

/-- An open block with an empty line between a lone carriage return and a pair, and the same lines
with newlines alone. -/
theorem extract_written_text_mixed :
    let v : Written := ⟨[(fence ++ ['c'], .carriageReturn), ([], .pair), (['x'], .newline)], fence⟩
    let w : Written := ⟨[(fence ++ ['c'], .newline), ([], .newline), (['x'], .newline)], fence⟩
    (v.Faithful ∧ w.Faithful ∧ v.lines = w.lines) ∧
      (Document.ofText v.text).lines = v.lines ∧
      Document.ofText v.text = Document.ofText w.text ∧
      extract v.text (.ofName ['c']) = extract w.text (.ofName ['c']) ∧
      extractBlocks v.text (.ofName ['c']) = [⟨1, [], ['\n', 'x']⟩] := by
  intro v w
  have hv : v.Faithful := ⟨by decide, by decide⟩
  have hw : w.Faithful := ⟨by decide, by decide⟩
  obtain ⟨hlines, hblocks⟩ := extract_written_text.1 v hv
  obtain ⟨hdocument, hextract⟩ := extract_written_text.2.1 v w hv hw rfl
  refine ⟨⟨hv, hw, rfl⟩, hlines, hdocument, hextract _, ?_⟩
  rw [hblocks]
  decide +kernel

end FencedCode
