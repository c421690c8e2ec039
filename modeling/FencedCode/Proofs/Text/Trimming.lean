import FencedCode.Text.Blank
import Mathlib.Data.List.DropRight

/-!
# Trimming

A text is white space, then what trimming leaves, then white space again
(`exists_eq_append_trim`), and what is left neither starts nor ends with any (`isTrimmed_trim`).
These two facts determine it: white space around a text that has none at its ends is just what
trimming takes away (`trim_append`).
-/
namespace FencedCode.Text

/-- White space and nothing else, possibly none at all. -/
def IsBlank (t : Text) : Prop :=
  ∀ c ∈ t, isBlank c = true

-- The instance for lists is named: a search may find the one that tries every character.
instance (t : Text) : Decidable (IsBlank t) :=
  List.decidableBAll _ t

/-- A text with no white space at either end. -/
structure IsTrimmed (t : Text) : Prop where
  first : ∀ c ∈ t.head?, isBlank c = false
  last : ∀ c ∈ t.getLast?, isBlank c = false

variable {s t w : Text}

theorem isBlank_nil : IsBlank [] :=
  List.forall_mem_nil _

theorem isTrimmed_nil : IsTrimmed [] :=
  ⟨nofun, nofun⟩

/-- White space before a text that starts with none is dropped, and nothing else. -/
theorem dropWhile_append_of_isBlank (hs : IsBlank s) (hw : ∀ c ∈ w.head?, isBlank c = false) :
    (s ++ w).dropWhile isBlank = w := by
  rw [List.dropWhile_append_of_pos hs]
  cases w with
  | nil => rfl
  | cons c w => exact List.dropWhile_cons_of_neg (Bool.eq_false_iff.mp (hw c rfl))

/-- White space behind a text that ends in none is dropped, and nothing else. -/
theorem rdropWhile_append_of_isBlank (ht : IsBlank t) (hw : ∀ c ∈ w.getLast?, isBlank c = false) :
    (w ++ t).rdropWhile isBlank = w := by
  have hreverse : IsBlank t.reverse := fun c hc => ht c (List.mem_reverse.mp hc)
  rw [← List.head?_reverse] at hw
  rw [List.rdropWhile, List.reverse_append, dropWhile_append_of_isBlank hreverse hw,
    List.reverse_reverse]

/-- Trimming takes away the white space around a text that has none at its ends. -/
theorem trim_append (hs : IsBlank s) (ht : IsBlank t) (hw : IsTrimmed w) :
    trim (s ++ w ++ t) = w := by
  show ((s ++ w ++ t).dropWhile isBlank).rdropWhile isBlank = w
  by_cases hnil : w = []
  · -- with nothing between them both are dropped from the front
    subst hnil
    rw [List.append_nil, List.dropWhile_append_of_pos hs, List.dropWhile_eq_nil_iff.mpr ht,
      List.rdropWhile_nil]
  · have hfirst : ∀ c ∈ (w ++ t).head?, isBlank c = false := by
      rw [List.head?_append_of_ne_nil w hnil]
      exact hw.first
    rw [List.append_assoc, dropWhile_append_of_isBlank hs hfirst,
      rdropWhile_append_of_isBlank ht hw.last]

/-- A text is what trimming leaves of it with white space around. -/
theorem exists_eq_append_trim (t : Text) :
    ∃ before after, IsBlank before ∧ IsBlank after ∧ t = before ++ trim t ++ after := by
  refine ⟨t.takeWhile isBlank, (t.dropWhile isBlank).rtakeWhile isBlank, ?_, ?_, ?_⟩
  · intro c hc
    exact List.mem_takeWhile_imp hc
  · intro c hc
    exact List.mem_rtakeWhile_imp hc
  · have hrest : trim t ++ (t.dropWhile isBlank).rtakeWhile isBlank = t.dropWhile isBlank :=
      List.rdropWhile_append_rtakeWhile
    rw [List.append_assoc, hrest, List.takeWhile_append_dropWhile]

/-- Trimming leaves no white space at the ends. -/
theorem isTrimmed_trim (t : Text) : IsTrimmed (trim t) := by
  constructor
  · intro c hc
    -- the front of what is left is the front of what dropping from the left leaves
    obtain ⟨rest, hrest⟩ : trim t <+: t.dropWhile isBlank := List.rdropWhile_prefix isBlank _
    have hhead : (t.dropWhile isBlank).head? = some c := by
      rw [← hrest, List.head?_append, Option.mem_def.mp hc]
      rfl
    have hnot := List.head?_dropWhile_not isBlank t
    rwa [hhead] at hnot
  · intro c hc
    obtain ⟨hne, rfl⟩ := List.mem_getLast?_eq_getLast hc
    exact Bool.eq_false_iff.mpr (List.rdropWhile_last_not isBlank _ hne)

/-- Trimming leaves a text as it is if and only if it has no blank at either end. -/
theorem trim_eq_self_iff : trim t = t ↔ IsTrimmed t := by
  constructor
  · intro h
    rw [← h]
    exact isTrimmed_trim t
  · intro h
    have := trim_append isBlank_nil isBlank_nil h
    rwa [List.nil_append, List.append_nil] at this

/-- Nothing is left of a text exactly if all of it is blank. -/
theorem trim_eq_nil_iff : trim t = [] ↔ IsBlank t := by
  constructor
  · intro h
    obtain ⟨before, after, hbefore, hafter, ht⟩ := exists_eq_append_trim t
    rw [h, List.append_nil] at ht
    rw [ht]
    exact List.forall_mem_append.mpr ⟨hbefore, hafter⟩
  · intro h
    have := trim_append h isBlank_nil isTrimmed_nil
    rwa [List.append_nil, List.append_nil] at this

end FencedCode.Text
