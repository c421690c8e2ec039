import FencedCode.Config.Parse
import FencedCode.Proofs.Config.Settings
import FencedCode.Proofs.Toml.DistinctKeys

/-!
# Which texts are configurations

A well-formed text stands for a table without equal keys. It is a configuration exactly if each
entry sets something and what they set is valid (`parse_of_well_formed`): the entries then describe
one configuration, in which what no key names is as in the standard one. Otherwise the first misfit
entry is reported, and an invalid tag only if there is none.
-/
namespace FencedCode

open Toml

namespace Config

/-- The setting of a configuration for a key. -/
def get (config : Config) : Field → Setting
  | .language => .language config.language
  | .fenceMarkers => .fenceMarkers config.fenceMarkers
  | .format => .format config.format

/-- A configuration is what a table describes. Nothing depends on the order of the entries. -/
structure IsDescribedBy (config : Config) (table : Table Node) : Prop where
  /-- each entry sets what the configuration holds -/
  set : ∀ entry ∈ table.entries, ∃ field, Sets entry (config.get field)
  /-- what is not named is as in the standard configuration -/
  unset : ∀ field : Field, field.name ∉ Table.names table.entries →
    config.get field = standard.get field

/-! ## Settings in turn -/

section

variable {config other : Config} {setting : Setting} {settings : List Setting} {field : Field}

/-- What is read from a field is a setting of that field. -/
@[simp] theorem field_get (config : Config) (field : Field) : (config.get field).field = field := by
  cases field <;> rfl

/-- A setting that was made is read back. -/
theorem get_set_self (config : Config) (setting : Setting) :
    (config.set setting).get setting.field = setting := by
  cases setting <;> rfl

/-- To set one field leaves the others as they are. -/
theorem get_set_of_ne (config : Config) (h : setting.field ≠ field) :
    (config.set setting).get field = config.get field := by
  cases setting <;> cases field <;> first | rfl | exact absurd rfl h

/-- A configuration is known by its three fields. -/
theorem ext_get (h : ∀ field, config.get field = other.get field) : config = other := by
  obtain ⟨language, fenceMarkers, format⟩ := config
  obtain ⟨language', fenceMarkers', format'⟩ := other
  have hlanguage := h .language
  have hmarkers := h .fenceMarkers
  have hformat := h .format
  simp only [get, Setting.language.injEq, Setting.fenceMarkers.injEq, Setting.format.injEq]
    at hlanguage hmarkers hformat
  rw [hlanguage, hmarkers, hformat]

/-- A field that no setting is about keeps its value. -/
theorem get_foldl_of_not_mem (h : field ∉ settings.map Setting.field) (config : Config) :
    (settings.foldl set config).get field = config.get field := by
  induction settings generalizing config with
  | nil => rfl
  | cons setting settings ih =>
    rw [List.map_cons, List.mem_cons, not_or] at h
    obtain ⟨hne, hrest⟩ := h
    exact (ih hrest (config.set setting)).trans (get_set_of_ne config (Ne.symm hne))

/-- Of settings for distinct fields each has its effect, in whatever place it stands. -/
theorem get_foldl_of_mem (hdistinct : (settings.map Setting.field).Nodup)
    (h : setting ∈ settings) (config : Config) :
    (settings.foldl set config).get setting.field = setting := by
  induction settings generalizing config with
  | nil => cases h
  | cons first settings ih =>
    obtain ⟨hfirst, hrest⟩ := List.nodup_cons.mp hdistinct
    rcases List.mem_cons.mp h with rfl | h
    · exact (get_foldl_of_not_mem hfirst _).trans (get_set_self config setting)
    · exact ih hrest h (config.set first)

end

/-! ## Settings of entries -/

section

variable {entry : Key × Node} {setting other : Setting} {entries : List (Key × Node)}
  {settings : List Setting}

/-- An entry is about the field that its key names. -/
theorem name_of_sets (h : Sets entry setting) : entry.1.name = setting.field.name := by
  cases h <;> assumption

/-- An entry sets one thing at most. -/
theorem sets_unique (h : Sets entry setting) (h' : Sets entry other) : setting = other :=
  Except.ok.inj ((readSetting_of_sets h).symm.trans (readSetting_of_sets h'))

/-- The keys of entries that set something are the names of what they set. -/
theorem names_eq_of_forall₂ (h : List.Forall₂ Sets entries settings) :
    Table.names entries = (settings.map Setting.field).map Field.name := by
  induction h with
  | nil => rfl
  | cons hsets _ ih => exact congrArg₂ List.cons (name_of_sets hsets) ih

/-- If each entry sets something, there are settings for all of them, in their order. -/
theorem exists_forall₂_sets (h : ∀ entry ∈ entries, ∃ setting, Sets entry setting) :
    ∃ settings, List.Forall₂ Sets entries settings := by
  rcases forall₂_or_first Sets entries with hsettings | ⟨before, entry, after, rfl, -, hnone⟩
  · exact hsettings
  · obtain ⟨setting, hsets⟩ := h entry (List.mem_append_right _ List.mem_cons_self)
    exact absurd hsets (hnone setting)

end

/-! ## What a table describes -/

section

variable {table : Table Node} {config other : Config}

/-- The settings made in turn are what the table describes, as no key stands in it twice. -/
theorem isDescribedBy_foldl (hdistinct : table.Distinct) {settings : List Setting}
    (h : List.Forall₂ Sets table.entries settings) :
    (settings.foldl set standard).IsDescribedBy table := by
  have hnames := names_eq_of_forall₂ h
  have hfields : (settings.map Setting.field).Nodup := by
    rw [Table.Distinct, hnames] at hdistinct
    exact hdistinct.of_map
  -- a setting is not undone by a later one, for that is about another field
  refine ⟨?_, ?_⟩
  · intro entry hentry
    obtain ⟨setting, hmem, hsets⟩ := exists_mem_of_forall₂ h hentry
    refine ⟨setting.field, ?_⟩
    rw [get_foldl_of_mem hfields hmem]
    exact hsets
  · intro field hunset
    rw [hnames] at hunset
    exact get_foldl_of_not_mem (fun hmem => hunset (List.mem_map_of_mem hmem)) standard

/-- An entry for a field sets the value that the configuration has there. -/
theorem IsDescribedBy.sets_get (h : config.IsDescribedBy table) {entry : Key × Node} {field : Field}
    (hentry : entry ∈ table.entries) (hname : entry.1.name = field.name) :
    Sets entry (config.get field) := by
  obtain ⟨field', hsets⟩ := h.set entry hentry
  have hname' := name_of_sets hsets
  rw [field_get] at hname'
  obtain rfl := Field.name_injective (hname.symm.trans hname')
  exact hsets

/-- A table describes one configuration at most. -/
theorem IsDescribedBy.unique (h : config.IsDescribedBy table) (h' : other.IsDescribedBy table) :
    config = other := by
  apply ext_get
  intro field
  -- each field is either set by an entry or as in the standard configuration
  by_cases hnamed : field.name ∈ Table.names table.entries
  · obtain ⟨entry, hentry, hname⟩ := List.mem_map.mp hnamed
    exact sets_unique (h.sets_get hentry hname) (h'.sets_get hentry hname)
  · exact (h.unset field hnamed).trans (h'.unset field hnamed).symm

/-- A table describes a configuration exactly if each of its entries sets something. -/
theorem exists_isDescribedBy_iff (hdistinct : table.Distinct) :
    (∃ config : Config, config.IsDescribedBy table) ↔
      ∀ entry ∈ table.entries, ∃ setting, Sets entry setting := by
  constructor
  · rintro ⟨config, h⟩ entry hentry
    obtain ⟨field, hsets⟩ := h.set entry hentry
    exact ⟨config.get field, hsets⟩
  · intro h
    obtain ⟨settings, hsettings⟩ := exists_forall₂_sets h
    exact ⟨_, isDescribedBy_foldl hdistinct hsettings⟩

/-- A table with distinct keys is decoded to the configuration that it describes. -/
theorem ofTable_eq_ok_iff_isDescribedBy (hdistinct : table.Distinct) :
    ofTable table = .ok config ↔ config.IsDescribedBy table := by
  rw [ofTable_eq_ok_iff]
  constructor
  · rintro ⟨settings, hsettings, rfl⟩
    exact isDescribedBy_foldl hdistinct hsettings
  · intro h
    have hset := (exists_isDescribedBy_iff hdistinct).mp ⟨config, h⟩
    obtain ⟨settings, hsettings⟩ := exists_forall₂_sets hset
    exact ⟨settings, hsettings, (isDescribedBy_foldl hdistinct hsettings).unique h⟩

end

/-! ## Texts -/

section

variable {text : Text} {table : Table Node}

/-- The three ways in which a well-formed text is taken: it is at fault, it describes an invalid
configuration, or it gives one. -/
theorem parse_eq_iff (h : Toml.parse? text = some table) {result : Except ParseFault Config} :
    parse text = result ↔
      (∃ located, ofTable table = .error located ∧
        result = .error (.misfit ⟨text, located.span, located.fault.message⟩)) ∨
      (∃ config tag, ofTable table = .ok config ∧ config.validate = .error tag ∧
        result = .error (.invalid tag)) ∨
      ∃ config, ofTable table = .ok config ∧ config.validate = .ok () ∧ result = .ok config := by
  constructor
  · rintro rfl
    rcases htable : ofTable table with located | config
    · left
      exact ⟨located, rfl, by simp only [parse, h, htable]⟩
    · right
      rcases hvalid : config.validate with tag | ⟨⟩
      · exact Or.inl ⟨config, tag, rfl, hvalid, by simp only [parse, h, htable, hvalid]⟩
      · exact Or.inr ⟨config, rfl, hvalid, by simp only [parse, h, htable, hvalid]⟩
  · rintro (⟨located, htable, rfl⟩ | ⟨config, tag, htable, hvalid, rfl⟩ |
      ⟨config, htable, hvalid, rfl⟩)
    · simp only [parse, h, htable]
    · simp only [parse, h, htable, hvalid]
    · simp only [parse, h, htable, hvalid]

/-- **Which texts are configurations.** A well-formed text is accepted exactly if its table
describes a valid configuration, which is the one that it gives; the table describes one exactly if
each of its entries sets something. Of several misfit entries the first in the order of the table is
reported, and an invalid tag only if no entry is misfit. -/
theorem parse_of_well_formed (h : Toml.parse? text = some table) :
    (∀ config : Config, parse text = .ok config ↔
      config.IsDescribedBy table ∧ config.validate = .ok ()) ∧
    ((∃ config : Config, config.IsDescribedBy table) ↔
      ∀ entry ∈ table.entries, ∃ setting, Sets entry setting) ∧
    ∀ fault : ParseFault, parse text = .error fault ↔
      (∃ before entry after located, table.entries = before ++ entry :: after ∧
        (∀ earlier ∈ before, ∃ setting, Sets earlier setting) ∧ Misfit entry located ∧
        fault = .misfit ⟨text, located.span, located.fault.message⟩) ∨
      ∃ (config : Config) (tag : InvalidTag), config.IsDescribedBy table ∧
        config.validate = .error tag ∧ fault = .invalid tag := by
  have hdistinct := distinct_of_parse? h
  refine ⟨?_, exists_isDescribedBy_iff hdistinct, ?_⟩
  · intro config
    rw [parse_eq_iff h, ← ofTable_eq_ok_iff_isDescribedBy hdistinct]
    constructor
    · -- a text that is accepted has no fault of either kind
      rintro (⟨located, -, hresult⟩ | ⟨other, tag, -, -, hresult⟩ |
        ⟨other, htable, hvalid, hresult⟩)
      · cases hresult
      · cases hresult
      · obtain rfl := Except.ok.inj hresult
        exact ⟨htable, hvalid⟩
    · rintro ⟨htable, hvalid⟩
      exact Or.inr (Or.inr ⟨config, htable, hvalid, rfl⟩)
  · intro fault
    rw [parse_eq_iff h]
    constructor
    · rintro (⟨located, htable, hresult⟩ | ⟨config, tag, htable, hvalid, hresult⟩ |
        ⟨config, -, -, hresult⟩)
      · obtain ⟨before, entry, after, hentries, hbefore, hmisfit⟩ := ofTable_eq_error_iff.mp htable
        exact Or.inl ⟨before, entry, after, located, hentries, hbefore, hmisfit,
          Except.error.inj hresult⟩
      · have hdescribed := (ofTable_eq_ok_iff_isDescribedBy hdistinct).mp htable
        exact Or.inr ⟨config, tag, hdescribed, hvalid, Except.error.inj hresult⟩
      · cases hresult
    · rintro (⟨before, entry, after, located, hentries, hbefore, hmisfit, rfl⟩ |
        ⟨config, tag, hdescribed, hvalid, rfl⟩)
      · have htable := ofTable_eq_error_iff.mpr ⟨before, entry, after, hentries, hbefore, hmisfit⟩
        exact Or.inl ⟨located, htable, rfl⟩
      · have htable := (ofTable_eq_ok_iff_isDescribedBy hdistinct).mpr hdescribed
        exact Or.inr (Or.inl ⟨config, tag, htable, hvalid, rfl⟩)

/-- The keys may stand in any order, and one that is absent is as in the standard configuration. -/
theorem parse_of_well_formed_shuffled :
    ∃ table, Toml.parse? "format = {json = []}\nlanguage = \"c\"".toList = some table ∧
      Config.IsDescribedBy ⟨['c'], [], .json⟩ table := by
  obtain ⟨table, h⟩ := Option.isSome_iff_exists.mp
    (by decide +kernel : (Toml.parse? "format = {json = []}\nlanguage = \"c\"".toList).isSome)
  refine ⟨table, h, ?_⟩
  have hparse : parse "format = {json = []}\nlanguage = \"c\"".toList = .ok ⟨['c'], [], .json⟩ := by
    decide +kernel
  exact (((parse_of_well_formed h).1 _).mp hparse).1

end

end Config

end FencedCode
