import FencedCode.Language
import Mathlib.Data.List.TakeWhile

/-!
# The lines that open a block

The grammar of opening fences: a fence, a tag without commas that the language has and, after a
comma, the attributes (`opening?_eq_some_iff`). A language has the tags that differ from its name or
from one of its markers at most in letter case, those markers included that were left out because
they repeat an earlier one (`hasTag_withMarkers`).
-/
namespace FencedCode.Language

/-! ## Tags -/

/-- A language has the tags that are one of its markers in any case of letters. -/
theorem hasTag_iff {language : Language} {tag : Text} :
    language.hasTag tag = true ↔ ∃ marker ∈ language.markers, marker.sameFold tag = true := by
  rw [hasTag, List.any_eq_true]

/-- A marker that is left out stands for no tag that the language does not have. -/
theorem hasTag_addMarker (language : Language) (marker tag : Text) :
    (language.addMarker marker).hasTag tag = true ↔
      language.hasTag tag = true ∨ marker.sameFold tag = true := by
  rw [addMarker]
  split
  · rename_i hmarker
    refine ⟨Or.inl, fun h => h.elim id fun htag => ?_⟩
    obtain ⟨earlier, hmem, hearlier⟩ := hasTag_iff.mp hmarker
    exact hasTag_iff.mpr ⟨earlier, hmem, Text.sameFold_trans hearlier htag⟩
  · simp [hasTag]

/-- Markers bring in their tags, whether they are new or not. -/
theorem hasTag_foldl_addMarker (markers : List Text) (language : Language) (tag : Text) :
    (markers.foldl addMarker language).hasTag tag = true ↔
      language.hasTag tag = true ∨ ∃ marker ∈ markers, marker.sameFold tag = true := by
  induction markers generalizing language with
  | nil => simp
  | cons marker markers ih =>
    rw [List.foldl_cons, ih, hasTag_addMarker, or_assoc]
    simp

/-- The tags of a language are its name and all markers it was given, letter case aside. -/
theorem hasTag_withMarkers (name : Text) (markers : List Text) (tag : Text) :
    (withMarkers name markers).hasTag tag = true ↔
      ∃ marker ∈ name :: markers, marker.sameFold tag = true := by
  rw [withMarkers, hasTag_foldl_addMarker]
  simp [ofName, hasTag]

/-! ## Opening fences -/

/-- The opening fence of a tag, with attributes if a comma follows the tag. -/
def openingFence (tag : Text) (attributes : Option Text) : Text :=
  fence ++ (tag ++ attributes.elim [] (',' :: ·))

theorem openingFence_none (tag : Text) : openingFence tag none = fence ++ tag :=
  congrArg (fence ++ ·) (List.append_nil tag)

theorem openingFence_some (tag attributes : Text) :
    openingFence tag (some attributes) = fence ++ tag ++ ',' :: attributes :=
  (List.append_assoc fence tag _).symm

/-- A fence line is a fence and anything after it. -/
theorem isFenceLine_iff {line : Text} : isFenceLine line = true ↔ ∃ info, line = fence ++ info := by
  rw [isFenceLine, List.isPrefixOf_iff_prefix]
  exact exists_congr fun info => eq_comm

/-- A fence opens a block if what stands before the first comma is one of the tags, and its
attributes are what stands after it. -/
theorem opening?_fence_append (language : Language) (info : Text) :
    language.opening? (fence ++ info) =
      if language.hasTag (splitInfo info).1 then some (splitInfo info).2 else none := by
  rw [opening?, if_pos (isFenceLine_iff.mpr ⟨info, rfl⟩), List.drop_left]

/-- What follows a fence is cut at its first comma. -/
theorem splitInfo_append {tag : Text} (htag : ',' ∉ tag) (attributes : Option Text) :
    splitInfo (tag ++ attributes.elim [] (',' :: ·)) = (tag, attributes.getD []) := by
  have hall : ∀ c ∈ tag, (c != ',') = true := fun c hc => by
    simpa using ne_of_mem_of_not_mem hc htag
  rw [splitInfo, List.takeWhile_append_of_pos hall, List.dropWhile_append_of_pos hall]
  cases attributes <;> simp

/-- The opening fence of a tag is read back as it was put together. -/
theorem opening?_openingFence {language : Language} {tag : Text} (htag : ',' ∉ tag)
    (attributes : Option Text) :
    language.opening? (openingFence tag attributes) =
      if language.hasTag tag then some (attributes.getD []) else none := by
  rw [openingFence, opening?_fence_append, splitInfo_append htag]

/-- What follows a fence is a tag without commas, and attributes if there is a comma. -/
theorem exists_eq_append_elim (info : Text) :
    ∃ tag, ∃ attributes : Option Text,
      ',' ∉ tag ∧ info = tag ++ attributes.elim [] (',' :: ·) := by
  refine ⟨info.takeWhile (· != ','), ?_⟩
  have htag : ',' ∉ info.takeWhile (· != ',') := fun hmem => by
    simpa using List.mem_takeWhile_imp hmem
  have hinfo : info = info.takeWhile (· != ',') ++ info.dropWhile (· != ',') :=
    List.takeWhile_append_dropWhile.symm
  -- the tag ends at the first comma, or there is none
  rcases hrest : info.dropWhile (· != ',') with _ | ⟨c, attributes⟩
  · exact ⟨none, htag, by rw [hrest] at hinfo; exact hinfo⟩
  · have hc : c = ',' := by
      have hfirst := List.head?_dropWhile_not (· != ',') info
      rw [hrest] at hfirst
      simpa using hfirst
    subst hc
    exact ⟨some attributes, htag, by rw [hrest] at hinfo; exact hinfo⟩

/-- A line opens a block when it is the opening fence of a tag that the language has. -/
theorem opening?_eq_some_iff {language : Language} {line attributes : Text} :
    language.opening? line = some attributes ↔
      ∃ tag given, ',' ∉ tag ∧ language.hasTag tag = true ∧ line = openingFence tag given ∧
        attributes = given.getD [] := by
  constructor
  · intro h
    obtain ⟨info, rfl⟩ := isFenceLine_iff.mp (isFenceLine_of_opening? h)
    obtain ⟨tag, given, htag, rfl⟩ := exists_eq_append_elim info
    rw [← openingFence, opening?_openingFence htag, Option.ite_none_right_eq_some] at h
    exact ⟨tag, given, htag, h.1, rfl, (Option.some.inj h.2).symm⟩
  · rintro ⟨tag, given, htag, hlanguage, rfl, rfl⟩
    rw [opening?_openingFence htag, if_pos hlanguage]

end FencedCode.Language
