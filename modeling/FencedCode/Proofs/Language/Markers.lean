import FencedCode.Proofs.Language.Opening
import Mathlib.Data.List.Induction
import Mathlib.Data.List.Nodup

/-!
# The markers that a language keeps

Of the name and the markers that it is given a language keeps the first of each tag, letter case
aside, in their order and as they are spelt: each text that differs in more than letter case from
all texts before it (`firstSpellings`). The language itself compares a marker only with those it has
kept, which comes to the same because a text that was left out stands for no tag of its own
(`withMarkers_eq`).

So a language that is given what it has kept keeps just that, and what is given after some markers
is treated as if only those kept of them had been given (`markers_withMarkers_firstSpellings`).
-/
namespace FencedCode.Language

/-! ## First spellings -/

/-- Whether a text differs in more than letter case from each of some others. -/
def isNew (others : List Text) (text : Text) : Bool :=
  others.all fun other => other.foldCase != text.foldCase

/-- The texts that differ in more than letter case from each text before them. -/
def firstSpellings (given : List Text) : List Text :=
  (given.zipIdx.filter fun entry => isNew (given.take entry.2) entry.1).map Prod.fst

section

variable {given others : List Text} {text : Text}

/-- A marker is new if it differs from the others by more than the case of letters. -/
theorem isNew_iff :
    isNew others text = true ↔ ∀ other ∈ others, other.foldCase ≠ text.foldCase := by
  simp [isNew]

/-- A further text is a first spelling or not, and makes no difference to those before it. -/
theorem firstSpellings_concat (given : List Text) (text : Text) :
    firstSpellings (given ++ [text]) =
      firstSpellings given ++ if isNew given text then [text] else [] := by
  have hsame : given.zipIdx.filter (fun entry => isNew ((given ++ [text]).take entry.2) entry.1) =
      given.zipIdx.filter fun entry => isNew (given.take entry.2) entry.1 := by
    refine List.filter_congr fun entry hentry => ?_
    have hlt : entry.2 < given.length := List.snd_lt_of_mem_zipIdx hentry
    rw [List.take_append_of_le_length (Nat.le_of_lt hlt)]
  rw [firstSpellings, List.zipIdx_append, List.filter_append, List.map_append, hsame]
  by_cases hnew : isNew given text = true <;> simp [firstSpellings, hnew]

/-- First spellings are among the texts given, in the same order. -/
theorem firstSpellings_sublist (given : List Text) : (firstSpellings given).Sublist given := by
  have h : (firstSpellings given).Sublist (given.zipIdx.map Prod.fst) :=
    List.filter_sublist.map Prod.fst
  rwa [List.zipIdx_map_fst] at h

/-- The first text is a first spelling. -/
theorem head?_firstSpellings (text : Text) (given : List Text) :
    (firstSpellings (text :: given)).head? = some text := by
  have hnew : isNew ((text :: given).take (text, 0).2) text = true := rfl
  rw [firstSpellings, List.zipIdx_cons, List.filter_cons, if_pos hnew]
  rfl

/-- No two first spellings are the same up to letter case. -/
theorem nodup_foldCase_firstSpellings (given : List Text) :
    ((firstSpellings given).map Text.foldCase).Nodup := by
  induction given using List.reverseRecOn with
  | nil => exact List.nodup_nil
  | append_singleton given text ih =>
    rw [firstSpellings_concat]
    split
    · rename_i hnew
      -- a text that is kept is new to all that was given, and so to what was kept of it
      rw [List.map_append, List.nodup_append]
      refine ⟨ih, List.nodup_singleton _, ?_⟩
      intro folded hfolded other hother
      obtain ⟨earlier, hearlier, rfl⟩ := List.mem_map.mp hfolded
      rw [List.mem_singleton.mp hother]
      exact isNew_iff.mp hnew earlier ((firstSpellings_sublist given).subset hearlier)
    · rwa [List.append_nil]

/-- Texts of which no two are the same up to letter case are all first spellings. -/
theorem firstSpellings_of_nodup (h : (given.map Text.foldCase).Nodup) :
    firstSpellings given = given := by
  induction given using List.reverseRecOn with
  | nil => rfl
  | append_singleton given text ih =>
    rw [List.map_append, List.nodup_append] at h
    obtain ⟨hgiven, -, hdiffer⟩ := h
    have hnew : isNew given text = true := isNew_iff.mpr fun other hother =>
      hdiffer _ (List.mem_map_of_mem hother) _ (List.mem_singleton_self _)
    rw [firstSpellings_concat, ih hgiven, if_pos hnew]

end

/-! ## Markers -/

section

variable {name : Text} {markers : List Text}

/-- Markers that are added later are added one by one. -/
theorem withMarkers_append (name : Text) (markers more : List Text) :
    withMarkers name (markers ++ more) = more.foldl addMarker (withMarkers name markers) :=
  List.foldl_append

/-- A language has the tag of a marker unless the marker is new to all that was given. -/
theorem hasTag_withMarkers_eq_not_isNew (name : Text) (markers : List Text) (marker : Text) :
    (withMarkers name markers).hasTag marker = !isNew (name :: markers) marker := by
  rw [Bool.eq_iff_iff, hasTag_withMarkers, Bool.not_eq_true', ← Bool.not_eq_true, isNew_iff]
  simp only [Text.sameFold_iff, not_forall, ne_eq, not_not, exists_prop]

/-- A language keeps the first spellings of what it is given. By induction on the markers from the
last one on, which is compared with what was kept of the others. -/
theorem withMarkers_eq (name : Text) (markers : List Text) :
    withMarkers name markers = ⟨name, firstSpellings (name :: markers)⟩ := by
  induction markers using List.reverseRecOn with
  | nil =>
    have hname : firstSpellings [name] = [name] :=
      firstSpellings_of_nodup (List.nodup_singleton name.foldCase)
    rw [hname]
    rfl
  | append_singleton markers marker ih =>
    -- what is kept of the others has a tag exactly if one of the others does
    have htag := hasTag_withMarkers_eq_not_isNew name markers marker
    rw [ih] at htag
    rw [withMarkers_append, List.foldl_cons, List.foldl_nil, ih, addMarker, htag,
      ← List.cons_append, firstSpellings_concat]
    cases isNew (name :: markers) marker with
    | true => rfl
    | false => exact congrArg (Language.mk name) (List.append_nil _).symm

/-- A marker that is the name makes no difference. -/
theorem withMarkers_name_cons (name : Text) (markers : List Text) :
    withMarkers name (name :: markers) = withMarkers name markers := by
  have htag : (ofName name).hasTag name = true := by
    simp [hasTag, ofName, Text.sameFold]
  rw [withMarkers, List.foldl_cons, addMarker, if_pos htag, withMarkers]

/-- What was kept is kept again. -/
theorem withMarkers_firstSpellings (name : Text) (markers : List Text) :
    withMarkers name (firstSpellings (name :: markers)) = withMarkers name markers := by
  have hnodup := nodup_foldCase_firstSpellings (name :: markers)
  -- the name is first among what is kept, and is not kept twice
  obtain ⟨kept, hkept⟩ := List.head?_eq_some_iff.mp (head?_firstSpellings name markers)
  rw [hkept] at hnodup
  rw [hkept, withMarkers_name_cons, withMarkers_eq, withMarkers_eq, hkept,
    firstSpellings_of_nodup hnodup]

end

/-- **A language keeps the first spelling of each tag.** Its markers start with the name, no two of
them are the same up to letter case, and they are the first spellings of what it was given. So a
language that is given its own markers is the same again, what is given after some markers is
treated as if only those kept of them had been given, and languages are the same exactly if their
names and the first spellings of what they were given are. A language known by its name alone is one
without further markers. -/
theorem markers_withMarkers_firstSpellings (name : Text) (markers : List Text) :
    let language := withMarkers name markers
    language.markers.head? = some name ∧
    (language.markers.map Text.foldCase).Nodup ∧
    language.markers = firstSpellings (name :: markers) ∧
    withMarkers name language.markers = language ∧
    (∀ more, withMarkers name (markers ++ more) = withMarkers name (language.markers ++ more)) ∧
    (∀ other others, language = withMarkers other others ↔
      name = other ∧ firstSpellings (name :: markers) = firstSpellings (other :: others)) ∧
    withMarkers name [] = ofName name := by
  intro language
  have hmarkers : language.markers = firstSpellings (name :: markers) :=
    congrArg Language.markers (withMarkers_eq name markers)
  have hagain : withMarkers name language.markers = language := by
    rw [hmarkers]
    exact withMarkers_firstSpellings name markers
  refine ⟨?_, ?_, hmarkers, hagain, fun more => ?_, fun other others => ?_, rfl⟩
  · rw [hmarkers, head?_firstSpellings]
  · rw [hmarkers]
    exact nodup_foldCase_firstSpellings _
  · rw [withMarkers_append, withMarkers_append, hagain]
  · rw [withMarkers_eq other others, ← Language.mk.injEq, ← withMarkers_eq name markers]

/-- A marker that repeats the name in another case, and one that repeats a marker which was kept. -/
example :
    withMarkers "Rust".toList ["RUST".toList, "rs".toList, "Rs".toList, "rust ".toList] =
      ⟨"Rust".toList, ["Rust".toList, "rs".toList, "rust ".toList]⟩ := by
  decide

end FencedCode.Language
