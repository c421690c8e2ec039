import FencedCode.Proofs.Config.Validity

/-!
# The first fault of a configuration

A configuration that is not valid has a first tag at fault, the language being looked at before the
markers (`exists_firstFault_iff`). Validation reports that tag, and it does so for every other
configuration that has the same tags up to there (`validate_of_firstFault`): the format and the
later tags are not looked at.
-/
namespace FencedCode.Config

/-- The first tag of a configuration that no fence can carry, and the tags before it. -/
structure FirstFault (config : Config) (before : List Text) (tag : Text) : Prop where
  place : before ++ [tag] <+: config.language :: config.fenceMarkers
  sound : ∀ earlier ∈ before, IsFenceTag earlier
  faulty : ¬ IsFenceTag tag

/-- What the tag after the given ones is for. -/
def roleAfter (before : List Text) : TagRole :=
  if before = [] then .language else .marker

variable {config : Config} {before : List Text} {tag : Text}

/-! ## Which tag is reported -/

/-- There is a first tag at fault exactly if the configuration is refused. -/
theorem exists_firstFault_iff :
    (∃ before tag, config.FirstFault before tag) ↔ config.validate ≠ .ok () := by
  constructor
  · rintro ⟨before, tag, hplace, -, hfaulty⟩ hvalid
    have hmem : tag ∈ before ++ [tag] := List.mem_append_right _ List.mem_cons_self
    exact hfaulty (validate_eq_ok_iff.mp hvalid tag (hplace.subset hmem))
  · intro hinvalid
    let tags := config.language :: config.fenceMarkers
    rcases hfirst : tags.find? fun tag => (tagFlaw? tag).isSome with _ | tag
    · -- without a fault in any tag the configuration would be valid
      have hsound : ∀ tag ∈ tags, IsFenceTag tag := by
        intro tag htag
        have hnone := List.find?_eq_none.mp hfirst tag htag
        exact tagFlaw?_eq_none_iff.mp (Option.not_isSome_iff_eq_none.mp hnone)
      exact absurd (validate_eq_ok_iff.mpr hsound) hinvalid
    · obtain ⟨hflaw, before, after, htags, hbefore⟩ := List.find?_eq_some_iff_append.mp hfirst
      refine ⟨before, tag, ⟨after, ?_⟩, ?_, ?_⟩
      · rw [List.append_assoc]
        exact htags.symm
      · intro earlier hearlier
        have hnone := hbefore earlier hearlier
        rw [Bool.not_eq_true', Option.isSome_eq_false_iff, Option.isNone_iff_eq_none] at hnone
        exact tagFlaw?_eq_none_iff.mp hnone
      · intro hsound
        rw [tagFlaw?_eq_none_iff.mpr hsound] at hflaw
        cases hflaw

/-- The tags in the order in which they are checked, around one of them. -/
theorem exists_tags_eq (h : before ++ [tag] <+: config.language :: config.fenceMarkers) :
    ∃ earlier later, config.tags = earlier ++ (roleAfter before, tag) :: later ∧
      earlier.map Prod.snd = before := by
  obtain ⟨after, htags⟩ := h
  rw [List.append_assoc, List.singleton_append] at htags
  rcases List.append_eq_cons_iff.mp htags with ⟨rfl, hcons⟩ | ⟨markers, rfl, hmarkers⟩
  · obtain ⟨rfl, -⟩ := List.cons.inj hcons
    exact ⟨[], config.fenceMarkers.map (.marker, ·), rfl, rfl⟩
  · refine ⟨(.language, config.language) :: markers.map (.marker, ·), after.map (.marker, ·),
      ?_, ?_⟩
    · rw [tags, hmarkers, List.map_append, List.map_cons]
      rfl
    · rw [List.map_cons, List.map_map]
      exact congrArg (config.language :: ·) (List.map_id markers)

/-- The first fault is the one that validation reports. -/
theorem validate_of_firstFault (h : config.FirstFault before tag) {flaw : TagFlaw}
    (hflaw : tagFlaw? tag = some flaw) :
    config.validate = .error ⟨roleAfter before, tag, flaw⟩ := by
  obtain ⟨earlier, later, htags, hearlier⟩ := exists_tags_eq h.place
  -- none of the tags in front has a flaw, so the search stops here
  have hinvalid : config.invalidTag? = some ⟨roleAfter before, tag, flaw⟩ := by
    rw [invalidTag?, List.findSome?_eq_some_iff]
    refine ⟨earlier, _, later, htags, ?_, ?_⟩
    · show (tagFlaw? tag).map _ = _
      rw [hflaw]
      rfl
    · intro entry hentry
      have hmem : entry.2 ∈ before := hearlier ▸ List.mem_map_of_mem hentry
      show (tagFlaw? entry.2).map _ = none
      rw [tagFlaw?_eq_none_iff.mpr (h.sound _ hmem)]
      rfl
  rw [validate, hinvalid]

/-! ## How it is reported -/

/-- Of several flaws of a tag the first is reported: that it is empty, that it holds a character
that may not stand in it, that it holds white space. -/
theorem message_of_tagFlaw? {flaw : TagFlaw} (h : tagFlaw? tag = some flaw) :
    flaw.message tag =
      if tag = [] then "fence tag cannot be empty".toList
      else if ',' ∈ tag ∨ '\x60' ∈ tag then
        "fence tag contains invalid character: ".toList ++ tag.quoted
      else "fence tag cannot contain whitespace: ".toList ++ tag.quoted := by
  rw [tagFlaw?] at h
  simp only [List.isEmpty_iff, Bool.or_eq_true, List.contains_iff_mem] at h
  split_ifs at h ⊢ with hempty hforbidden hblank
  · obtain rfl := Option.some.inj h
    rfl
  · obtain rfl := Option.some.inj h
    rfl
  · obtain rfl := Option.some.inj h
    rfl

/-- **Validation names the first fault.** A configuration is accepted exactly if each of its tags is
not empty and holds no comma, no backtick and no white space. Otherwise there is a first tag that is
not so, and the report says what it is for and what is wrong with it. Configurations that agree up
to that tag are refused for the same reason, whatever their formats are and whatever tags follow. -/
theorem validate_reports_first (config : Config) :
    (config.validate = .ok () ↔ ∀ tag ∈ config.language :: config.fenceMarkers,
      tag ≠ [] ∧ ',' ∉ tag ∧ '\x60' ∉ tag ∧ ∀ c ∈ tag, Text.isBlank c = false) ∧
    (config.validate ≠ .ok () ↔ ∃ before tag, config.FirstFault before tag) ∧
    (∀ before tag, config.FirstFault before tag →
      ∃ invalid, config.validate = .error invalid ∧
        invalid.message =
          (if before = [] then "Invalid language".toList else "Invalid fence marker".toList) ++
            ": ".toList ++
            (if tag = [] then "fence tag cannot be empty".toList
            else if ',' ∈ tag ∨ '\x60' ∈ tag then
              "fence tag contains invalid character: ".toList ++ tag.quoted
            else "fence tag cannot contain whitespace: ".toList ++ tag.quoted) ∧
        ∀ other : Config, before ++ [tag] <+: other.language :: other.fenceMarkers →
          other.validate = .error invalid) ∧
    ∀ format, { config with format := format }.validate = config.validate := by
  refine ⟨?_, exists_firstFault_iff.symm, ?_, fun _ => rfl⟩
  · rw [validate_eq_ok_iff]
    refine forall₂_congr fun tag _ => ⟨?_, ?_⟩
    · intro h
      exact ⟨h.ne_nil, h.comma, h.backtick, h.blank⟩
    · rintro ⟨hne, hcomma, hbacktick, hblank⟩
      exact ⟨hne, hcomma, hbacktick, hblank⟩
  · intro before tag h
    obtain ⟨flaw, hflaw⟩ : ∃ flaw, tagFlaw? tag = some flaw :=
      Option.ne_none_iff_exists'.mp (mt tagFlaw?_eq_none_iff.mp h.faulty)
    refine ⟨⟨roleAfter before, tag, flaw⟩, validate_of_firstFault h hflaw, ?_, ?_⟩
    · rw [InvalidTag.message, message_of_tagFlaw? hflaw, roleAfter]
      split_ifs <;> rfl
    · intro other hplace
      exact validate_of_firstFault ⟨hplace, h.sound, h.faulty⟩ hflaw

/-- A marker with white space before a comma, ahead of an empty one. -/
theorem validate_reports_first_marker :
    let config : Config := ⟨['c'], [['h'], [' ', ','], []], .json⟩
    config.FirstFault [['c'], ['h']] [' ', ','] ∧
      (∃ invalid, config.validate = .error invalid ∧ invalid.message =
        "Invalid fence marker: fence tag contains invalid character: \" ,\"".toList) ∧
      Config.validate ⟨['c'], [['h'], [' ', ','], ['x']], .records⟩ = config.validate := by
  intro config
  have hfault : config.FirstFault [['c'], ['h']] [' ', ','] :=
    { place := by decide
      sound := fun tag htag => tagFlaw?_eq_none_iff.mp
        ((by decide : ∀ tag ∈ [['c'], ['h']], tagFlaw? tag = none) tag htag)
      faulty := mt tagFlaw?_eq_none_iff.mpr (by decide) }
  obtain ⟨invalid, hconfig, hmessage, hother⟩ :=
    (validate_reports_first config).2.2.1 _ _ hfault
  refine ⟨hfault, ⟨invalid, hconfig, ?_⟩, ?_⟩
  · rw [hmessage]
    decide +kernel
  · rw [hconfig]
    exact hother _ (by decide)

end FencedCode.Config
