import FencedCode.Text.Basic

/-!
# Documents

A document is a text whose line ends are all newlines: a carriage return followed by a newline and
a carriage return alone both become one newline (`unifyNewlines`). Its lines are the parts between
the newlines, so a text that ends in a newline has an empty last line.

Line ends are unified by two replacements over the whole text, and not at all when there is no
carriage return. Both come to the same as one reading from left to right, which is what the lemmas
on `unifyNewlines` state, one for each way in which a text can begin.
-/
namespace FencedCode

/-- Every pair of a carriage return and a newline made one newline. -/
def joinPairs (text : Text) : Text :=
  go text []
where
  /-- The same with the characters already written, in reverse. -/
  go : Text → Text → Text
    | '\r' :: '\n' :: rest, written => go rest ('\n' :: written)
    | c :: rest, written => go rest (c :: written)
    | [], written => written.reverse

/-- Every carriage return made a newline. -/
def replaceReturns (text : Text) : Text :=
  text.map fun c => if c = '\r' then '\n' else c

/-- Every line end made a newline: first the pairs of a carriage return and a newline, then the
carriage returns that are left. -/
def unifyNewlines (text : Text) : Text :=
  if text.contains '\r' then replaceReturns (joinPairs text) else text

/-- A document held for scanning. -/
structure Document where
  /-- the text, every line end of it a newline -/
  text : Text
  deriving DecidableEq, Repr

namespace Document

/-- The document of a text with any line ends. -/
def ofText (text : Text) : Document where
  text := unifyNewlines text

/-- The lines of a document, at least one. -/
def lines (document : Document) : List Text :=
  document.text.splitOn '\n'

end Document

/-! ## Reading line ends from left to right -/

/-- What is written so far stays in front of what is still to be joined. -/
private theorem joinPairs_go (text written : Text) :
    joinPairs.go text written = written.reverse ++ joinPairs text := by
  have append (read before : Text) :
      joinPairs.go text (read ++ before) = before.reverse ++ joinPairs.go text read := by
    fun_induction joinPairs.go text read <;> simp_all [joinPairs.go]
  exact append [] written

/-- A pair becomes one newline. -/
theorem joinPairs_pair (rest : Text) :
    joinPairs ('\r' :: '\n' :: rest) = '\n' :: joinPairs rest := by
  rw [joinPairs, joinPairs.go, joinPairs_go]
  rfl

/-- A character that does not begin a pair stays. -/
theorem joinPairs_cons {c : Char} {rest : Text} (h : c = '\r' → rest.head? ≠ some '\n') :
    joinPairs (c :: rest) = c :: joinPairs rest := by
  rw [joinPairs, joinPairs.go, joinPairs_go]
  · rfl
  · rintro t rfl rfl
    exact h rfl rfl

/-- There are no pairs without carriage returns. -/
theorem joinPairs_eq_self {text : Text} (h : '\r' ∉ text) : joinPairs text = text := by
  induction text with
  | nil => rfl
  | cons c rest ih =>
    rw [List.mem_cons, not_or] at h
    rw [joinPairs_cons fun hc => absurd hc.symm h.1, ih h.2]

/-- Nor is there anything to replace without them. -/
theorem replaceReturns_eq_self {text : Text} (h : '\r' ∉ text) : replaceReturns text = text := by
  have hc (c : Char) (hc : c ∈ text) : (if c = '\r' then '\n' else c) = c :=
    if_neg (ne_of_mem_of_not_mem hc h)
  rw [replaceReturns, List.map_congr_left hc, List.map_id']

/-- A text without carriage returns is what the two replacements make of it too. -/
theorem unifyNewlines_eq (text : Text) : unifyNewlines text = replaceReturns (joinPairs text) := by
  rw [unifyNewlines]
  split
  · rfl
  · rename_i h
    rw [List.contains_iff_mem] at h
    rw [joinPairs_eq_self h, replaceReturns_eq_self h]

@[simp] theorem unifyNewlines_nil : unifyNewlines [] = [] :=
  rfl

/-- A carriage return and a newline are one line end. -/
theorem unifyNewlines_return_newline (rest : Text) :
    unifyNewlines ('\r' :: '\n' :: rest) = '\n' :: unifyNewlines rest := by
  rw [unifyNewlines_eq, joinPairs_pair, unifyNewlines_eq]
  rfl

/-- A carriage return that no newline follows is a line end. -/
theorem unifyNewlines_return {rest : Text} (h : rest.head? ≠ some '\n') :
    unifyNewlines ('\r' :: rest) = '\n' :: unifyNewlines rest := by
  rw [unifyNewlines_eq, joinPairs_cons fun _ => h, unifyNewlines_eq]
  rfl

/-- Every other character stays. -/
theorem unifyNewlines_cons {c : Char} (h : c ≠ '\r') (rest : Text) :
    unifyNewlines (c :: rest) = c :: unifyNewlines rest := by
  rw [unifyNewlines_eq, joinPairs_cons fun hc => absurd hc h, unifyNewlines_eq]
  simp [replaceReturns, h]

end FencedCode
