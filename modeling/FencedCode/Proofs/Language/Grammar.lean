import FencedCode.Proofs.Language.Opening
import FencedCode.Proofs.Text.LetterCase

/-!
# The grammar of opening fences

Which lines open a block of a language, said of the name and the markers it was given and not of
those it keeps: a fence, a tag without commas that is one of them up to letter case and, after a
comma, the attributes (`Opens`). There is at most one way to read a line like this
(`Opens.unique`). Each of the markers opens the lines that it would open as the only one
(`opening?_withMarkers_iff_exists`), and none of these is the fence of a longer or a shorter tag
(`opening?_ofName_of_length_ne`).
-/
namespace FencedCode.Language

/-- A line is the fence of a tag that is one of the markers given, up to letter case, with the
attributes. -/
structure Opens (given : List Text) (line tag attributes : Text) : Prop where
  /-- a comma would end the tag -/
  comma : ',' ∉ tag
  marker : ∃ marker ∈ given, List.Forall₂ Text.SameLetter marker tag
  /-- the attributes come after a comma, and are empty without one -/
  line : line = fence ++ tag ∧ attributes = [] ∨ line = fence ++ tag ++ ',' :: attributes

section

variable {given markers : List Text} {name line tag attributes : Text}

/-- The two forms of a line are the opening fences without and with a comma. -/
theorem line_iff_exists_openingFence :
    (line = fence ++ tag ∧ attributes = [] ∨ line = fence ++ tag ++ ',' :: attributes) ↔
      ∃ written, line = openingFence tag written ∧ attributes = written.getD [] := by
  constructor
  · rintro (⟨rfl, rfl⟩ | rfl)
    · exact ⟨none, (openingFence_none tag).symm, rfl⟩
    · exact ⟨some attributes, (openingFence_some tag attributes).symm, rfl⟩
  · rintro ⟨_ | written, rfl, rfl⟩
    · exact Or.inl ⟨openingFence_none tag, rfl⟩
    · exact Or.inr (openingFence_some tag _)

/-- A line can be read in one way only. -/
theorem Opens.unique {others : List Text} {tag' attributes' : Text}
    (h : Opens given line tag attributes) (h' : Opens others line tag' attributes') :
    tag = tag' ∧ attributes = attributes' := by
  obtain ⟨written, hline, rfl⟩ := line_iff_exists_openingFence.mp h.line
  obtain ⟨written', hline', rfl⟩ := line_iff_exists_openingFence.mp h'.line
  have hinfo : tag ++ written.elim [] (',' :: ·) = tag' ++ written'.elim [] (',' :: ·) :=
    List.append_cancel_left (hline.symm.trans hline')
  -- both readings cut the text after the fence at its first comma
  have hsplit := congrArg splitInfo hinfo
  rw [splitInfo_append h.comma, splitInfo_append h'.comma] at hsplit
  exact Prod.mk.inj hsplit

/-- A line opens a block exactly if it can be read as the fence of a marker given. -/
theorem opening?_withMarkers_iff :
    (withMarkers name markers).opening? line = some attributes ↔
      ∃ tag, Opens (name :: markers) line tag attributes := by
  rw [opening?_eq_some_iff]
  constructor
  · rintro ⟨tag, written, hcomma, htag, hline⟩
    obtain ⟨marker, hmem, hsame⟩ := (hasTag_withMarkers name markers tag).mp htag
    exact ⟨tag, hcomma, ⟨marker, hmem, Text.sameFold_iff_forall₂.mp hsame⟩,
      line_iff_exists_openingFence.mpr ⟨written, hline⟩⟩
  · rintro ⟨tag, hcomma, ⟨marker, hmem, hsame⟩, hline⟩
    obtain ⟨written, hline⟩ := line_iff_exists_openingFence.mp hline
    exact ⟨tag, written, hcomma, (hasTag_withMarkers name markers tag).mpr
      ⟨marker, hmem, Text.sameFold_iff_forall₂.mpr hsame⟩, hline⟩

/-- A line opens no block exactly if the grammar has no way to read it. -/
theorem opening?_withMarkers_eq_none_iff :
    (withMarkers name markers).opening? line = none ↔
      ¬ ∃ tag attributes, Opens (name :: markers) line tag attributes := by
  rw [Option.eq_none_iff_forall_ne_some, exists_comm, not_exists]
  exact forall_congr' fun attributes => not_congr opening?_withMarkers_iff

/-! ## One marker at a time -/

theorem withMarkers_nil (name : Text) : withMarkers name [] = ofName name :=
  rfl

/-- A language opens the lines that one of its markers would open alone. -/
theorem opening?_withMarkers_iff_exists :
    (withMarkers name markers).opening? line = some attributes ↔
      ∃ marker ∈ name :: markers, (ofName marker).opening? line = some attributes := by
  have halone (marker : Text) :
      (ofName marker).opening? line = some attributes ↔
        ∃ tag, Opens [marker] line tag attributes := by
    rw [← withMarkers_nil, opening?_withMarkers_iff]
  simp only [opening?_withMarkers_iff, halone]
  constructor
  · rintro ⟨tag, hcomma, ⟨marker, hmem, hsame⟩, hline⟩
    exact ⟨marker, hmem, tag, hcomma, ⟨marker, List.mem_singleton_self marker, hsame⟩, hline⟩
  · rintro ⟨marker, hmem, tag, hcomma, ⟨other, hother, hsame⟩, hline⟩
    rw [List.mem_singleton.mp hother] at hsame
    exact ⟨tag, hcomma, ⟨marker, hmem, hsame⟩, hline⟩

/-- Then its tags are its name in any case of letters. -/
theorem hasTag_ofName (name tag : Text) : (ofName name).hasTag tag = name.sameFold tag := by
  rw [hasTag, ofName, List.any_cons, List.any_nil, Bool.or_false]

/-- A marker does not open the fences of what is only a part of it, nor of what continues it. -/
theorem opening?_ofName_of_length_ne {marker : Text} (hcomma : ',' ∉ tag)
    (hlength : tag.length ≠ marker.length) (written : Option Text) :
    (ofName marker).opening? (openingFence tag written) = none := by
  rw [opening?_openingFence hcomma, hasTag_ofName, if_neg]
  -- folding the case of letters keeps the length
  intro hsame
  exact hlength (Text.sameFold_iff_forall₂.mp hsame).length_eq.symm

/-- No tag is a marker with a comma. -/
theorem opening?_ofName_of_comma {marker : Text} (hmarker : ',' ∈ marker) (line : Text) :
    (ofName marker).opening? line = none := by
  rw [Option.eq_none_iff_forall_ne_some]
  intro attributes h
  obtain ⟨tag, written, hcomma, htag, -⟩ := opening?_eq_some_iff.mp h
  rw [hasTag_ofName] at htag
  exact hcomma ((Text.mem_iff_of_sameFold (by decide) htag).mp hmarker)

end

/-- **The grammar of opening fences.** A line opens a block of a language with given attributes
exactly if it is the fence of a tag without commas that is the name or one of the markers given up
to letter case, with these attributes; the tag and the attributes are then unique, and no other line
opens one. So each marker counts for itself: it opens no fence of a tag that is shorter or longer,
and none at all if it holds a comma. -/
theorem opening?_withMarkers_grammar (name : Text) (markers : List Text) :
    let language := withMarkers name markers
    (∀ line attributes, language.opening? line = some attributes ↔
      ∃ tag, Opens (name :: markers) line tag attributes) ∧
    (∀ line tag attributes tag' attributes', Opens (name :: markers) line tag attributes →
      Opens (name :: markers) line tag' attributes' → tag = tag' ∧ attributes = attributes') ∧
    (∀ line, language.opening? line = none ↔
      ¬ ∃ tag attributes, Opens (name :: markers) line tag attributes) ∧
    (∀ line attributes, language.opening? line = some attributes ↔
      ∃ marker ∈ name :: markers, (ofName marker).opening? line = some attributes) ∧
    (∀ marker tag written, ',' ∉ tag → tag.length ≠ marker.length →
      (ofName marker).opening? (openingFence tag written) = none) ∧
    ∀ marker line, ',' ∈ marker → (ofName marker).opening? line = none :=
  ⟨fun _ _ => opening?_withMarkers_iff, fun _ _ _ _ _ h h' => h.unique h',
    fun _ => opening?_withMarkers_eq_none_iff, fun _ _ => opening?_withMarkers_iff_exists,
    fun _ _ written hcomma hlength => opening?_ofName_of_length_ne hcomma hlength written,
    fun _ line hmarker => opening?_ofName_of_comma hmarker line⟩

/-- A marker that is left out because the name is the same, one that is cut short, continued, or cut
by a comma. -/
theorem opening?_withMarkers_grammar_rust :
    let name := "rust".toList
    let markers := ["RUST".toList, "rs,x".toList]
    let line := fence ++ "Rust,x,y".toList
    Opens (name :: markers) line "Rust".toList "x,y".toList ∧
    (withMarkers name markers).opening? line = some "x,y".toList ∧
    (ofName name).opening? (openingFence "Rus".toList none) = none ∧
    (ofName name).opening? (openingFence "rusty".toList (some [])) = none ∧
    (',' ∈ "rs,x".toList ∧ (ofName "rs,x".toList).opening? (fence ++ "rs,x".toList) = none) := by
  intro name markers line
  obtain ⟨hsome, -, -, -, hlength, hcomma⟩ := opening?_withMarkers_grammar name markers
  have hopens : Opens (name :: markers) line "Rust".toList "x,y".toList :=
    ⟨by decide, ⟨name, by decide, Text.sameFold_iff_forall₂.mp (by decide)⟩, Or.inr (by decide)⟩
  refine ⟨hopens, (hsome line _).mpr ⟨_, hopens⟩, ?_, ?_, by decide, ?_⟩
  · exact hlength name _ none (by decide) (by decide)
  · exact hlength name _ (some []) (by decide) (by decide)
  · exact hcomma _ _ (by decide)

end FencedCode.Language
