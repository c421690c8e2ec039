import FencedCode.Document.Basic
import Mathlib.Data.List.Basic

/-!
# Unified line ends

What `unifyNewlines` does to whole texts: no carriage return is left
(`return_not_mem_unifyNewlines`), a text without any stays as it is (`unifyNewlines_eq_self`), and
the two halves of a text can be treated apart unless a pair is cut in two (`unifyNewlines_append`).
From this, lines without line ends in them that are joined by newlines are the lines of the document
(`lines_ofText_intercalate`).
-/
namespace FencedCode

/-- A text that fits on one line: it has no carriage return and no newline in it. -/
def OneLine (line : Text) : Prop :=
  '\r' ∉ line ∧ '\n' ∉ line

instance (line : Text) : Decidable (OneLine line) :=
  inferInstanceAs (Decidable (_ ∧ _))

/-- A character that ends no line can be put in front of a line. -/
theorem OneLine.cons {c : Char} {line : Text} (h : OneLine line) (hr : c ≠ '\r') (hn : c ≠ '\n') :
    OneLine (c :: line) :=
  ⟨List.not_mem_cons_of_ne_of_not_mem hr.symm h.1, List.not_mem_cons_of_ne_of_not_mem hn.symm h.2⟩

/-- Two parts are one line together exactly if each of them is. -/
theorem oneLine_append {line rest : Text} :
    OneLine (line ++ rest) ↔ OneLine line ∧ OneLine rest := by
  simp only [OneLine, List.mem_append, not_or]
  exact and_and_and_comm

/-- Whether a text is one line does not depend on characters that end none. -/
theorem oneLine_cons {c : Char} {line : Text} (hr : c ≠ '\r') (hn : c ≠ '\n') :
    OneLine (c :: line) ↔ OneLine line :=
  ⟨fun h => ⟨fun hc => h.1 (List.mem_cons_of_mem _ hc), fun hc => h.2 (List.mem_cons_of_mem _ hc)⟩,
    fun h => h.cons hr hn⟩

/-! ## Texts -/

/-- A text without carriage returns stays as it is. -/
theorem unifyNewlines_eq_self {text : Text} (h : '\r' ∉ text) : unifyNewlines text = text := by
  rw [unifyNewlines_eq, joinPairs_eq_self h, replaceReturns_eq_self h]

/-- No carriage return is left. -/
theorem return_not_mem_unifyNewlines (text : Text) : '\r' ∉ unifyNewlines text := by
  rw [unifyNewlines_eq, replaceReturns]
  intro h
  obtain ⟨c, -, hc⟩ := List.mem_map.mp h
  split at hc
  · cases hc
  · contradiction

/-- Line ends are unified on both sides of a cut that does not go through a pair. -/
theorem unifyNewlines_append :
    ∀ {text rest : Text}, (text.getLast? = some '\r' → rest.head? ≠ some '\n') →
      unifyNewlines (text ++ rest) = unifyNewlines text ++ unifyNewlines rest
  | [], _, _ => rfl
  | [c], rest, h => by
    by_cases hc : c = '\r'
    · subst hc
      exact unifyNewlines_return (h rfl)
    · rw [unifyNewlines_cons hc, List.singleton_append, unifyNewlines_cons hc]
      rfl
  | c :: d :: text, rest, h => by
    rw [List.getLast?_cons_cons] at h
    by_cases hc : c = '\r'
    · subst hc
      by_cases hd : d = '\n'
      · -- the pair is taken as a whole, so the cut is looked at after it
        subst hd
        have htail : text.getLast? = some '\r' → rest.head? ≠ some '\n' := by
          intro hlast
          cases text with
          | nil => cases hlast
          | cons e text => exact h hlast
        rw [List.cons_append, List.cons_append, unifyNewlines_return_newline,
          unifyNewlines_return_newline, unifyNewlines_append htail]
        rfl
      · have hhead : (d :: text).head? ≠ some '\n' := fun he => hd (Option.some.inj he)
        have hhead' : (d :: text ++ rest).head? ≠ some '\n' := hhead
        rw [List.cons_append, unifyNewlines_return hhead', unifyNewlines_return hhead,
          unifyNewlines_append h]
        rfl
    · rw [List.cons_append, unifyNewlines_cons hc, unifyNewlines_cons hc, unifyNewlines_append h]
      rfl

/-! ## Lines -/

/-- What stands between two separators is part of the text and holds no separator. -/
theorem mem_of_mem_splitOn {text line : Text} {separator c : Char}
    (hline : line ∈ text.splitOn separator) (hc : c ∈ line) : c ∈ text ∧ c ≠ separator := by
  induction text generalizing line with
  | nil =>
    rw [List.splitOn_nil, List.mem_singleton] at hline
    subst hline
    cases hc
  | cons d text ih =>
    -- a separator cuts off an empty part, any other character is put in front of the first part
    rw [List.splitOn_cons_eq_if_modifyHead] at hline
    split at hline
    · rcases List.mem_cons.mp hline with rfl | hline
      · cases hc
      · exact ⟨List.mem_cons_of_mem _ (ih hline hc).1, (ih hline hc).2⟩
    · rename_i hd
      obtain ⟨first, rest, hsplit⟩ :=
        List.exists_cons_of_ne_nil (List.splitOn_ne_nil separator text)
      rw [hsplit] at ih hline
      rcases List.mem_cons.mp hline with rfl | hline
      · rcases List.mem_cons.mp hc with rfl | hc
        · exact ⟨List.mem_cons_self, fun he => hd (beq_iff_eq.mpr he)⟩
        · have := ih List.mem_cons_self hc
          exact ⟨List.mem_cons_of_mem _ this.1, this.2⟩
      · have := ih (List.mem_cons_of_mem _ hline) hc
        exact ⟨List.mem_cons_of_mem _ this.1, this.2⟩

/-- What joined lines hold besides the separator is in one of them. -/
theorem mem_of_mem_intercalate {lines : List Text} {separator c : Char}
    (h : c ∈ [separator].intercalate lines) (hc : c ≠ separator) : ∃ line ∈ lines, c ∈ line := by
  induction lines with
  | nil => cases h
  | cons line lines ih =>
    cases lines with
    | nil => exact ⟨line, List.mem_cons_self, by rwa [List.intercalate_singleton] at h⟩
    | cons next lines =>
      rw [List.intercalate_cons_cons, List.mem_append, List.mem_append, List.mem_singleton] at h
      rcases h with (h | h) | h
      · exact ⟨line, List.mem_cons_self, h⟩
      · exact absurd h hc
      · obtain ⟨found, hfound, hmem⟩ := ih h
        exact ⟨found, List.mem_cons_of_mem _ hfound, hmem⟩

namespace Document

/-- The lines of a document hold no line ends. -/
theorem oneLine_of_mem_lines {text line : Text} (h : line ∈ (ofText text).lines) :
    OneLine line :=
  ⟨fun hc => return_not_mem_unifyNewlines text (mem_of_mem_splitOn h hc).1,
    fun hc => (mem_of_mem_splitOn h hc).2 rfl⟩

/-- A newline between two texts is a line end, unless a carriage return before it takes it in. -/
theorem lines_ofText_append {text : Text} (h : text.getLast? ≠ some '\r') (rest : Text) :
    (ofText (text ++ '\n' :: rest)).lines = (ofText text).lines ++ (ofText rest).lines := by
  have hcut : unifyNewlines (text ++ '\n' :: rest) =
      unifyNewlines text ++ '\n' :: unifyNewlines rest := by
    rw [unifyNewlines_append fun hlast => absurd hlast h, unifyNewlines_cons (by decide)]
  rw [Document.lines, ofText, hcut]
  exact List.splitOn_append_cons_self _ _

/-- A document is its lines joined by newlines. -/
theorem intercalate_lines (document : Document) :
    ['\n'].intercalate document.lines = document.text :=
  List.intercalate_splitOn '\n'

/-- Documents with the same lines are the same. -/
theorem ext_lines {document other : Document} (h : document.lines = other.lines) :
    document = other := by
  have htext : document.text = other.text := by
    rw [← intercalate_lines, h, intercalate_lines]
  cases document
  cases other
  exact congrArg mk htext

/-- Lines without line ends in them, joined by newlines, are the lines of the document. -/
theorem lines_ofText_intercalate {lines : List Text} (hne : lines ≠ [])
    (h : ∀ line ∈ lines, OneLine line) :
    (ofText (['\n'].intercalate lines)).lines = lines := by
  have hreturn : '\r' ∉ ['\n'].intercalate lines := fun hc => by
    obtain ⟨line, hline, hc⟩ := mem_of_mem_intercalate hc (by decide)
    exact (h line hline).1 hc
  rw [Document.lines, ofText, unifyNewlines_eq_self hreturn]
  exact List.splitOn_intercalate '\n' (fun line hline => (h line hline).2) hne

end Document

end FencedCode
