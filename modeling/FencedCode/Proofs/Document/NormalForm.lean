import FencedCode.Proofs.Document.Newlines

/-!
# The normal form of a text

The text of a document is the normal form of the text that it was made from. It is read from left
to right, a pair of a carriage return and a newline at a time, then a carriage return on its own,
then any other character (`readingInduction`). On such a reading one sees what a document keeps and
what it counts: all characters but the line ends (`filter_unifyNewlines`), and one newline for each
line end (`count_unifyNewlines`). Where two texts are put together, a pair may come about that was
in neither of them, and only there is the normal form not put together too
(`unifyNewlines_append_of_pair`).
-/
namespace FencedCode

/-- A text is empty, or it starts with a pair, with a carriage return alone or with another
character. -/
@[elab_as_elim]
theorem readingInduction {motive : Text → Prop} (nil : motive [])
    (pair : ∀ rest, motive rest → motive ('\r' :: '\n' :: rest))
    (carriageReturn : ∀ rest, rest.head? ≠ some '\n' → motive rest → motive ('\r' :: rest))
    (other : ∀ c rest, c ≠ '\r' → motive rest → motive (c :: rest)) :
    ∀ text, motive text
  | [] => nil
  | [c] => by
    by_cases hc : c = '\r'
    · subst hc
      exact carriageReturn [] (by decide) nil
    · exact other c [] hc nil
  | c :: d :: rest => by
    by_cases hc : c = '\r'
    · subst hc
      -- two characters at a time, as it takes both to tell a pair
      by_cases hd : d = '\n'
      · subst hd
        exact pair rest (readingInduction nil pair carriageReturn other rest)
      · have hhead : (d :: rest).head? ≠ some '\n' := fun h => hd (Option.some.inj h)
        exact carriageReturn _ hhead (readingInduction nil pair carriageReturn other (d :: rest))
    · exact other c _ hc (readingInduction nil pair carriageReturn other (d :: rest))

/-! ## What is counted -/

/-- The number of places where a newline comes right after a carriage return. -/
def pairs (text : Text) : Nat :=
  (text.zip text.tail).count ('\r', '\n')

/-- A character in front makes a pair if it is a carriage return before a line feed. -/
theorem pairs_cons (c : Char) (rest : Text) :
    pairs (c :: rest) = pairs rest + if c = '\r' ∧ rest.head? = some '\n' then 1 else 0 := by
  cases rest with
  | nil => simp [pairs]
  | cons d rest => simp [pairs, List.count_cons]

/-- Each line end becomes one newline, and a pair is one line end. -/
theorem count_unifyNewlines (text : Text) :
    (unifyNewlines text).count '\n' + pairs text = text.count '\n' + text.count '\r' := by
  induction text using readingInduction with
  | nil => rfl
  | pair rest ih =>
    have hpairs : pairs ('\r' :: '\n' :: rest) = pairs rest + 1 := by
      rw [pairs_cons, pairs_cons]
      simp
    rw [unifyNewlines_return_newline, hpairs]
    simp only [List.count_cons_self, List.count_cons_of_ne, ne_eq, Char.reduceEq, not_false_eq_true]
    omega
  | carriageReturn rest hhead ih =>
    have hpairs : pairs ('\r' :: rest) = pairs rest := by
      rw [pairs_cons, if_neg fun h => hhead h.2]
      rfl
    rw [unifyNewlines_return hhead, hpairs]
    simp only [List.count_cons_self, List.count_cons_of_ne, ne_eq, Char.reduceEq, not_false_eq_true]
    omega
  | other c rest hc ih =>
    have hpairs : pairs (c :: rest) = pairs rest := by
      rw [pairs_cons, if_neg fun h => hc h.1]
      rfl
    have hreturns : (c :: rest).count '\r' = rest.count '\r' := List.count_cons_of_ne hc
    rw [unifyNewlines_cons hc, hpairs, hreturns, List.count_cons, List.count_cons]
    omega

/-- There is one part more than there are separators. -/
theorem length_splitOn (text : Text) (separator : Char) :
    (text.splitOn separator).length = text.count separator + 1 := by
  induction text with
  | nil => rfl
  | cons c text ih =>
    rw [List.splitOn_cons_eq_if_modifyHead, List.count_cons]
    split_ifs with hc
    · rw [List.length_cons, ih]
    · rw [List.length_modifyHead, ih]

/-! ## What is kept -/

/-- All characters but the line ends stay, in their order. -/
theorem filter_unifyNewlines (text : Text) :
    (unifyNewlines text).filter (fun c => c != '\r' && c != '\n') =
      text.filter fun c => c != '\r' && c != '\n' := by
  induction text using readingInduction with
  | nil => rfl
  | pair rest ih =>
    rw [unifyNewlines_return_newline]
    simpa using ih
  | carriageReturn rest hhead ih =>
    rw [unifyNewlines_return hhead]
    simpa using ih
  | other c rest hc ih => rw [unifyNewlines_cons hc, List.filter_cons, List.filter_cons, ih]

/-! ## Two texts put together -/

/-- A carriage return at the end of a text and the newline that comes next are one line end, which
the normal form of the text has already. -/
theorem unifyNewlines_append_of_pair {text : Text} (h : text.getLast? = some '\r') (rest : Text) :
    unifyNewlines (text ++ '\n' :: rest) = unifyNewlines text ++ unifyNewlines rest := by
  obtain ⟨front, rfl⟩ := List.getLast?_eq_some_iff.mp h
  -- the cut is moved in front of the carriage return, where it goes through no pair
  have hcut (behind : Text) : unifyNewlines (front ++ '\r' :: behind) =
      unifyNewlines front ++ unifyNewlines ('\r' :: behind) :=
    unifyNewlines_append fun _ => by simp
  rw [List.append_assoc, List.singleton_append, hcut, hcut, unifyNewlines_return_newline,
    unifyNewlines_return (by simp), unifyNewlines_nil, List.append_assoc, List.singleton_append]

/-! ## Documents -/

namespace Document

/-- There is one line more than line ends, and a pair is one line end. -/
theorem length_lines_ofText (text : Text) :
    (ofText text).lines.length + pairs text = 1 + text.count '\n' + text.count '\r' := by
  have hcount := count_unifyNewlines text
  show ((unifyNewlines text).splitOn '\n').length + pairs text = _
  rw [length_splitOn]
  omega

/-- The lines of a document joined by newlines are a text of that document. -/
theorem ofText_intercalate_lines (text : Text) :
    ofText (['\n'].intercalate (ofText text).lines) = ofText text := by
  rw [intercalate_lines, ofText, ofText, unifyNewlines_eq_self (return_not_mem_unifyNewlines text)]

/-- **The normal form of texts.** A document holds no carriage return, it is the document of its own
lines joined by newlines, it has one line more than its text has line ends, and it keeps all other
characters. It is what the two replacements make of its text, whether or not that has a carriage
return. Two texts put together give the two normal forms put together, except that a pair at the
seam is one line end. Documents are equal exactly if their lines are. -/
theorem ofText_normal_form :
    (∀ text, '\r' ∉ (ofText text).text ∧
      ofText (['\n'].intercalate (ofText text).lines) = ofText text ∧
      (ofText text).lines.length + pairs text = 1 + text.count '\n' + text.count '\r' ∧
      (ofText text).text.filter (fun c => c != '\r' && c != '\n') =
        text.filter (fun c => c != '\r' && c != '\n') ∧
      (ofText text).text = replaceReturns (joinPairs text)) ∧
    (∀ text rest : Text, ¬ (text.getLast? = some '\r' ∧ rest.head? = some '\n') →
      (ofText (text ++ rest)).text = (ofText text).text ++ (ofText rest).text) ∧
    (∀ text rest : Text, text.getLast? = some '\r' → rest.head? = some '\n' →
      (ofText (text ++ rest)).text = (ofText text).text ++ (ofText rest.tail).text ∧
        (ofText rest).text = '\n' :: (ofText rest.tail).text) ∧
    ∀ document other : Document, document = other ↔ document.lines = other.lines := by
  refine ⟨?_, ?_, ?_, ?_⟩
  · intro text
    exact ⟨return_not_mem_unifyNewlines text, ofText_intercalate_lines text,
      length_lines_ofText text, filter_unifyNewlines text, unifyNewlines_eq text⟩
  · intro text rest hseam
    exact unifyNewlines_append fun hlast hhead => hseam ⟨hlast, hhead⟩
  · intro text rest hlast hhead
    obtain ⟨rest, rfl⟩ := List.head?_eq_some_iff.mp hhead
    exact ⟨unifyNewlines_append_of_pair hlast rest, unifyNewlines_cons (by decide) rest⟩
  · intro document other
    exact ⟨congrArg lines, ext_lines⟩

/-- A pair that comes about at a seam, after a carriage return that stands alone. -/
theorem ofText_normal_form_pair :
    let text : Text := ['a', '\r', '\r']
    let rest : Text := ['\n', '\r', 'b']
    (text.getLast? = some '\r' ∧ rest.head? = some '\n') ∧
      (ofText (text ++ rest)).text = (ofText text).text ++ (ofText rest.tail).text ∧
      (ofText (text ++ rest)).lines = [['a'], [], [], ['b']] ∧ pairs (text ++ rest) = 1 := by
  intro text rest
  obtain ⟨hseam, -⟩ := ofText_normal_form.2.2.1 text rest rfl rfl
  exact ⟨⟨rfl, rfl⟩, hseam, by decide, by decide⟩

end Document

end FencedCode
