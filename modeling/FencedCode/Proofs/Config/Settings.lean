import FencedCode.Config.Decode
import Mathlib.Data.List.Forall2

/-!
# What a key of a configuration says

An entry of a table sets a language, markers or a format (`Sets`), or it is at fault in one of the
ways of `Misfit`. Neither depends on the other entries. Decoding reads the settings one by one in
the order of the table (`ofTable_eq`), so the first misfit entry is the one that it reports.
-/
namespace FencedCode

open Toml

/-! ## Lists of results -/

section

variable {ε α β γ : Type} {f : α → Except ε β} {a : α} {as : List α}

/-- A function of a result has a value where the result has. -/
theorem map_eq_ok_iff {x : Except ε α} {g : α → β} {b : β} :
    x.map g = .ok b ↔ ∃ a, x = .ok a ∧ g a = b := by
  cases x with
  | error e => exact iff_of_false nofun nofun
  | ok a =>
    constructor
    · intro h
      exact ⟨a, rfl, Except.ok.inj h⟩
    · rintro ⟨a, ha, rfl⟩
      obtain rfl := Except.ok.inj ha
      rfl

theorem map_eq_error_iff {x : Except ε α} {g : α → β} {e : ε} :
    x.map g = .error e ↔ x = .error e := by
  cases x with
  | error e' =>
    constructor
    · intro h
      rw [Except.error.inj h]
    · intro h
      obtain rfl := Except.error.inj h
      rfl
  | ok a => exact iff_of_false nofun nofun

/-- If the first item is accepted, the others decide. -/
theorem mapM_cons_of_ok {b : β} (h : f a = .ok b) :
    (a :: as).mapM f = (as.mapM f).map (b :: ·) := by
  rw [List.mapM_cons, h]
  cases as.mapM f <;> rfl

theorem mapM_cons_of_error {e : ε} (h : f a = .error e) : (a :: as).mapM f = .error e := by
  rw [List.mapM_cons, h]
  rfl

/-- All items are accepted exactly if each of them is, and their values come in the same order. -/
theorem mapM_eq_ok_iff {bs : List β} :
    as.mapM f = .ok bs ↔ List.Forall₂ (fun a b => f a = .ok b) as bs := by
  induction as generalizing bs with
  | nil =>
    rw [List.forall₂_nil_left_iff]
    constructor
    · intro h
      exact (Except.ok.inj h).symm
    · rintro rfl
      rfl
  | cons a as ih =>
    rw [List.forall₂_cons_left_iff]
    rcases h : f a with e | b
    · rw [mapM_cons_of_error h]
      refine iff_of_false nofun ?_
      rintro ⟨b, rest, hb, -, -⟩
      cases hb
    · rw [mapM_cons_of_ok h, map_eq_ok_iff]
      constructor
      · rintro ⟨rest, hrest, rfl⟩
        exact ⟨b, rest, rfl, ih.mp hrest, rfl⟩
      · rintro ⟨b', rest, hb, hrest, rfl⟩
        obtain rfl := Except.ok.inj hb
        exact ⟨rest, ih.mpr hrest, rfl⟩

/-- The first failure is the one that is reported. -/
theorem mapM_eq_error_iff {e : ε} :
    as.mapM f = .error e ↔
      ∃ before a after, as = before ++ a :: after ∧
        (∀ earlier ∈ before, ∃ b, f earlier = .ok b) ∧ f a = .error e := by
  induction as with
  | nil =>
    refine iff_of_false nofun ?_
    rintro ⟨before, a, after, h, -⟩
    exact List.append_ne_nil_of_right_ne_nil before (List.cons_ne_nil a after) h.symm
  | cons a as ih =>
    simp only [List.cons_eq_append_iff]
    -- if the first is accepted, the failure is further on and the first belongs to those before it
    rcases h : f a with e' | b
    · rw [mapM_cons_of_error h]
      constructor
      · intro he
        obtain rfl := Except.error.inj he
        exact ⟨[], a, as, Or.inl ⟨rfl, rfl⟩, nofun, h⟩
      · rintro ⟨before, a', after, ⟨rfl, hcons⟩ | ⟨rest, rfl, -⟩, hbefore, ha'⟩
        · obtain ⟨rfl, -⟩ := List.cons.inj hcons
          obtain rfl := Except.error.inj (h.symm.trans ha')
          rfl
        · obtain ⟨b, hb⟩ := hbefore a List.mem_cons_self
          cases h.symm.trans hb
    · rw [mapM_cons_of_ok h, map_eq_error_iff, ih]
      constructor
      · rintro ⟨before, a', after, rfl, hbefore, ha'⟩
        refine ⟨a :: before, a', after, Or.inr ⟨before, rfl, rfl⟩, ?_, ha'⟩
        exact List.forall_mem_cons.mpr ⟨⟨b, h⟩, hbefore⟩
      · rintro ⟨before, a', after, ⟨rfl, hcons⟩ | ⟨rest, rfl, hrest⟩, hbefore, ha'⟩
        · obtain ⟨rfl, -⟩ := List.cons.inj hcons
          cases h.symm.trans ha'
        · exact ⟨rest, a', after, hrest, (List.forall_mem_cons.mp hbefore).2, ha'⟩

/-- The elements of a list are all related to something, or there is a first that is not. -/
theorem forall₂_or_first (R : α → β → Prop) (as : List α) :
    (∃ bs, List.Forall₂ R as bs) ∨
      ∃ before a after, as = before ++ a :: after ∧
        (∀ earlier ∈ before, ∃ b, R earlier b) ∧ ∀ b, ¬ R a b := by
  induction as with
  | nil => exact Or.inl ⟨[], .nil⟩
  | cons first as ih =>
    by_cases hfirst : ∃ b, R first b
    · obtain ⟨b, hb⟩ := hfirst
      rcases ih with ⟨bs, hbs⟩ | ⟨before, a, after, rfl, hbefore, ha⟩
      · exact Or.inl ⟨b :: bs, .cons hb hbs⟩
      · exact Or.inr ⟨first :: before, a, after, rfl,
          List.forall_mem_cons.mpr ⟨⟨b, hb⟩, hbefore⟩, ha⟩
    · exact Or.inr ⟨[], first, as, rfl, nofun, not_exists.mp hfirst⟩

/-- What is related item by item has a partner for each item. -/
theorem exists_mem_of_forall₂ {R : α → β → Prop} {bs : List β} (h : List.Forall₂ R as bs)
    (ha : a ∈ as) : ∃ b ∈ bs, R a b := by
  induction h with
  | nil => cases ha
  | cons hab _ ih =>
    rcases List.mem_cons.mp ha with rfl | ha
    · exact ⟨_, List.mem_cons_self, hab⟩
    · obtain ⟨b, hb, hR⟩ := ih ha
      exact ⟨b, List.mem_cons_of_mem _ hb, hR⟩

/-- Steps that only depend on what is read at them are readings, put together afterwards. -/
theorem foldlM_map_eq (set : γ → β → γ) (c : γ) :
    as.foldlM (fun c a => (f a).map (set c)) c = (as.mapM f).map (List.foldl set c) := by
  induction as generalizing c with
  | nil => rfl
  | cons a as ih =>
    rw [List.foldlM_cons]
    rcases h : f a with e | b
    · rw [mapM_cons_of_error h]
      rfl
    · rw [mapM_cons_of_ok h]
      refine (ih (set c b)).trans ?_
      cases as.mapM f <;> rfl

end

/-! ## Names -/

/-- Different fields have different names. -/
theorem Field.name_injective {field other : Field} (h : field.name = other.name) :
    field = other := by
  cases field <;> cases other <;> first | rfl | exact absurd h (by decide)

/-- A field is found under its name and under no other. -/
theorem Field.ofName?_eq_some_iff {name : Text} {field : Field} :
    ofName? name = some field ↔ name = field.name := by
  constructor
  · intro h
    rw [ofName?] at h
    have hname := List.find?_some h
    exact (beq_iff_eq.mp hname).symm
  · rintro rfl
    cases field <;> decide

theorem Field.ofName?_eq_none_iff {name : Text} :
    ofName? name = none ↔ ∀ field : Field, name ≠ field.name := by
  rw [Option.eq_none_iff_forall_ne_some]
  exact forall_congr' fun field => not_congr ofName?_eq_some_iff

/-- A format is found under its name and under no other. -/
theorem Format.ofName?_eq_some_iff {name : Text} {format : Format} :
    ofName? name = some format ↔ name = format.name := by
  constructor
  · intro h
    rw [ofName?] at h
    have hname := List.find?_some h
    exact (beq_iff_eq.mp hname).symm
  · rintro rfl
    exact ofName?_name format

theorem Format.ofName?_eq_none_iff {name : Text} :
    ofName? name = none ↔ ∀ format : Format, name ≠ format.name := by
  rw [Option.eq_none_iff_forall_ne_some]
  exact forall_congr' fun format => not_congr ofName?_eq_some_iff

/-! ## Values -/

namespace Toml.Node

/-- The text of a string. -/
def string? : Node → Option Text
  | .scalar (.string text) _ => some text
  | _ => none

/-- The elements of an array. The tables of equal headers between double brackets are one, too. -/
def items? : Node → Option (List Node)
  | .array items _ => some items
  | .tables elements => some (elements.map .table)
  | _ => none

/-- What is pointed at for an element that has no span of its own. -/
def itemSpan (around : Span) : Node → Span
  | .array _ span => span
  | _ => around

/-- The table of a value that is one. -/
def table? : Node → Option (Table Node)
  | .table t => some t
  | _ => none

/-- An empty array or an empty table. -/
inductive Vacant : Node → Prop
  | array (span : Span) : Vacant (.array [] span)
  | table (origin : Origin) : Vacant (.table ⟨origin, []⟩)

/-- A value names a format: it is the name, or a table with the name as the only key and an empty
value. -/
inductive Names : Node → Format → Prop
  | string {node : Node} {format : Format} (h : node.string? = some format.name) :
      Names node format
  | table {node value : Node} {origin : Origin} {key : Key} {format : Format}
      (h : node.table? = some ⟨origin, [(key, value)]⟩) (hkey : key.name = format.name)
      (hvalue : value.Vacant) : Names node format

/-- A value names no format, and the fault. -/
inductive Misnames (around : Span) : Node → Located → Prop
  | string {node : Node} {text : Text} (h : node.string? = some text)
      (htext : ∀ format : Format, text ≠ format.name) :
      Misnames around node ⟨.unknownVariant text, node.span?.getD around⟩
  | key {node value : Node} {origin : Origin} {key : Key}
      (h : node.table? = some ⟨origin, [(key, value)]⟩)
      (hkey : ∀ format : Format, key.name ≠ format.name) :
      Misnames around node ⟨.unknownVariant key.name, key.span⟩
  | value {node value : Node} {origin : Origin} {key : Key} {format : Format} {what : Text}
      (h : node.table? = some ⟨origin, [(key, value)]⟩) (hkey : key.name = format.name)
      (hvalue : Config.wantedEmpty value = some what) :
      Misnames around node ⟨.notEmpty what, value.span?.getD (node.span?.getD around)⟩
  | keys {node : Node} {t : Table Node} (h : node.table? = some t) (hkeys : t.entries.length ≠ 1) :
      Misnames around node ⟨.notOneKey (decide (1 < t.entries.length)), node.span?.getD around⟩
  | kind {node : Node} (hstring : node.string? = none) (htable : node.table? = none) :
      Misnames around node ⟨.notAVariant, node.span?.getD around⟩

end Toml.Node

/-! ## Strings and arrays -/

section

variable {around : Span} {node : Node}

namespace Config

/-- A string is taken as it is. -/
theorem decodeString_of_string {text : Text} (h : node.string? = some text) :
    decodeString around node = .ok text := by
  cases node with
  | scalar value span => cases value with
    | string text' =>
      obtain rfl := Option.some.inj h
      rfl
    | _ => cases h
  | _ => cases h

/-- Anything else is refused at its own place, or at that of the key if it has none. -/
theorem decodeString_of_not_string (h : node.string? = none) :
    decodeString around node =
      .error ⟨.invalidType node.kind .string, node.span?.getD around⟩ := by
  cases node with
  | scalar value span => cases value with
    | string text => cases h
    | _ => rfl
  | _ => rfl

/-- The elements of an array are decoded one by one. -/
theorem decodeStrings_of_items {items : List Node} (h : node.items? = some items) :
    decodeStrings around node = items.mapM (decodeString (node.itemSpan around)) := by
  cases node with
  | array items' span =>
    obtain rfl := Option.some.inj h
    rfl
  | tables elements =>
    obtain rfl := Option.some.inj h
    rw [decodeStrings, List.mapM_map]
    rfl
  | _ => cases h

/-- What is no array is refused as a whole. -/
theorem decodeStrings_of_not_items (h : node.items? = none) :
    decodeStrings around node =
      .error ⟨.invalidType node.kind .sequence, node.span?.getD around⟩ := by
  cases node with
  | array => cases h
  | tables => cases h
  | _ => rfl

end Config

/-! ## Formats -/

namespace Toml.Node

/-- A variant has no value exactly if it stands alone or in front of something vacant. -/
theorem wantedEmpty_eq_none_iff : Config.wantedEmpty node = none ↔ node.Vacant := by
  constructor
  · intro h
    rcases node with value | ⟨_ | item, span⟩ | ⟨origin, _ | entry⟩ | elements
    · cases value <;> cases h
    · exact .array span
    · cases h
    · exact .table origin
    · cases h
    · cases h
  · rintro (span | origin) <;> rfl

/-- Only a table is taken for one. -/
theorem eq_table_of_table? {t : Table Node} (h : node.table? = some t) : node = .table t := by
  cases node with
  | table => rw [Option.some.inj h]
  | _ => cases h

/-- Only a string scalar is taken for a string. -/
theorem eq_scalar_of_string? {text : Text} (h : node.string? = some text) :
    ∃ span, node = .scalar (.string text) span := by
  cases node with
  | scalar value span => cases value with
    | string text' => exact ⟨span, by rw [Option.some.inj h]⟩
    | _ => cases h
  | _ => cases h

end Toml.Node

namespace Config

/-- What names a format is decoded to it. -/
theorem decodeFormat_of_names {format : Format} (h : node.Names format) :
    decodeFormat around node = .ok format := by
  rcases h with h | ⟨h, hkey, hvalue⟩
  · obtain ⟨span, rfl⟩ := Node.eq_scalar_of_string? h
    rw [decodeFormat, Format.ofName?_name]
  · obtain rfl := Node.eq_table_of_table? h
    rw [← Node.wantedEmpty_eq_none_iff] at hvalue
    rw [decodeFormat, hkey, Format.ofName?_name, hvalue]

/-- What does not is refused as its fault says. -/
theorem decodeFormat_of_misnames {located : Located} (h : node.Misnames around located) :
    decodeFormat around node = .error located := by
  cases h with
  | string h htext =>
    obtain ⟨span, rfl⟩ := Node.eq_scalar_of_string? h
    rw [decodeFormat, Format.ofName?_eq_none_iff.mpr htext]
  | key h hkey =>
    obtain rfl := Node.eq_table_of_table? h
    rw [decodeFormat, Format.ofName?_eq_none_iff.mpr hkey]
  | value h hkey hvalue =>
    obtain rfl := Node.eq_table_of_table? h
    rw [decodeFormat, hkey, Format.ofName?_name, hvalue]
  | @keys t h hkeys =>
    obtain rfl := Node.eq_table_of_table? h
    -- a table names a format if it has one key, so none and several are at fault
    obtain ⟨origin, _ | ⟨entry, _ | ⟨entry', entries⟩⟩⟩ := t
    · rfl
    · exact absurd rfl hkeys
    · rfl
  | kind hstring htable =>
    rcases node with ⟨value, span⟩ | _ | _ | _
    · cases value with
      | string => cases hstring
      | _ => rfl
    · rfl
    · cases htable
    · rfl

/-- Every value of the key either names a format or is at fault in one way. -/
theorem names_or_misnames (around : Span) (node : Node) :
    (∃ format, node.Names format) ∨ ∃ located, node.Misnames around located := by
  -- a string, then a table, then anything else
  cases hstring : node.string? with
  | some text =>
    cases hname : Format.ofName? text with
    | none => exact Or.inr ⟨_, .string hstring (Format.ofName?_eq_none_iff.mp hname)⟩
    | some format =>
      obtain rfl := Format.ofName?_eq_some_iff.mp hname
      exact Or.inl ⟨format, .string hstring⟩
  | none =>
    cases htable : node.table? with
    | none => exact Or.inr ⟨_, .kind hstring htable⟩
    | some t =>
      by_cases hlength : t.entries.length = 1
      · obtain ⟨origin, entries⟩ := t
        obtain ⟨⟨key, value⟩, rfl⟩ := List.length_eq_one_iff.mp hlength
        cases hname : Format.ofName? key.name with
        | none => exact Or.inr ⟨_, .key htable (Format.ofName?_eq_none_iff.mp hname)⟩
        | some format =>
          have hkey := Format.ofName?_eq_some_iff.mp hname
          cases hvalue : wantedEmpty value with
          | none =>
            have hvacant := Node.wantedEmpty_eq_none_iff.mp hvalue
            exact Or.inl ⟨format, .table htable hkey hvacant⟩
          | some what => exact Or.inr ⟨_, .value htable hkey hvalue⟩
      · exact Or.inr ⟨_, .keys htable hlength⟩

end Config

end

/-! ## Settings -/

/-- What a configuration holds for one of its keys. -/
inductive Setting where
  | language (name : Text)
  | fenceMarkers (markers : List Text)
  | format (format : Format)

/-- The key of a setting. -/
def Setting.field : Setting → Field
  | language _ => .language
  | fenceMarkers _ => .fenceMarkers
  | format _ => .format

/-- What an entry of a table sets: the language by a string, the markers by an array of strings, the
format by a value that names it. -/
inductive Sets : Key × Node → Setting → Prop
  | language {key : Key} {node : Node} {name : Text} (hkey : key.name = Field.language.name)
      (h : node.string? = some name) : Sets (key, node) (.language name)
  | fenceMarkers {key : Key} {node : Node} {items : List Node} {markers : List Text}
      (hkey : key.name = Field.fenceMarkers.name) (h : node.items? = some items)
      (hitems : List.Forall₂ (fun item marker => item.string? = some marker) items markers) :
      Sets (key, node) (.fenceMarkers markers)
  | format {key : Key} {node : Node} {format : Format} (hkey : key.name = Field.format.name)
      (h : node.Names format) : Sets (key, node) (.format format)

/-- The fault of an entry that sets nothing, and what it points at. Among several markers the first
that is no string is at fault. -/
inductive Misfit : Key × Node → Located → Prop
  | unknownKey {key : Key} {node : Node} (h : ∀ field : Field, key.name ≠ field.name) :
      Misfit (key, node) ⟨.unknownField key.name, key.span⟩
  | language {key : Key} {node : Node} (hkey : key.name = Field.language.name)
      (h : node.string? = none) :
      Misfit (key, node) ⟨.invalidType node.kind .string, node.span?.getD key.span⟩
  | fenceMarkers {key : Key} {node : Node} (hkey : key.name = Field.fenceMarkers.name)
      (h : node.items? = none) :
      Misfit (key, node) ⟨.invalidType node.kind .sequence, node.span?.getD key.span⟩
  | fenceMarker {key : Key} {node item : Node} {before after : List Node}
      (hkey : key.name = Field.fenceMarkers.name) (h : node.items? = some (before ++ item :: after))
      (hbefore : ∀ earlier ∈ before, ∃ text, earlier.string? = some text)
      (hitem : item.string? = none) :
      Misfit (key, node)
        ⟨.invalidType item.kind .string, item.span?.getD (node.itemSpan key.span)⟩
  | format {key : Key} {node : Node} {located : Located} (hkey : key.name = Field.format.name)
      (h : node.Misnames key.span located) : Misfit (key, node) located

namespace Config

/-- The setting of one entry. -/
def readSetting (entry : Key × Node) : Except Located Setting :=
  match Field.ofName? entry.1.name with
  | none => .error ⟨.unknownField entry.1.name, entry.1.span⟩
  | some .language => (decodeString entry.1.span entry.2).map .language
  | some .fenceMarkers => (decodeStrings entry.1.span entry.2).map .fenceMarkers
  | some .format => (decodeFormat entry.1.span entry.2).map .format

/-- The configuration with one setting changed. -/
def set (config : Config) : Setting → Config
  | .language name => { config with language := name }
  | .fenceMarkers markers => { config with fenceMarkers := markers }
  | .format format => { config with format := format }

/-- To decode an entry is to read a setting and to make it. -/
theorem decodeEntry_eq (config : Config) (entry : Key × Node) :
    decodeEntry config entry = (readSetting entry).map config.set := by
  obtain ⟨key, node⟩ := entry
  rw [decodeEntry, readSetting]
  cases Field.ofName? key.name with
  | none => rfl
  | some field =>
    cases field with
    | language => cases decodeString key.span node <;> rfl
    | fenceMarkers => cases decodeStrings key.span node <;> rfl
    | format => cases decodeFormat key.span node <;> rfl

/-- A table is decoded by reading all its settings and then making them in turn. -/
theorem ofTable_eq (table : Table Node) :
    ofTable table = (table.entries.mapM readSetting).map (List.foldl set standard) := by
  rw [ofTable, funext fun config => funext (decodeEntry_eq config)]
  exact foldlM_map_eq set standard

/-- An entry that sets something is read as that setting. -/
theorem readSetting_of_sets {entry : Key × Node} {setting : Setting} (h : Sets entry setting) :
    readSetting entry = .ok setting := by
  cases h with
  | language hkey h =>
    rw [readSetting, Field.ofName?_eq_some_iff.mpr hkey]
    exact map_eq_ok_iff.mpr ⟨_, decodeString_of_string h, rfl⟩
  | fenceMarkers hkey h hitems =>
    rw [readSetting, Field.ofName?_eq_some_iff.mpr hkey]
    refine map_eq_ok_iff.mpr ⟨_, ?_, rfl⟩
    rw [decodeStrings_of_items h, mapM_eq_ok_iff]
    exact hitems.imp fun _ _ => decodeString_of_string
  | format hkey h =>
    rw [readSetting, Field.ofName?_eq_some_iff.mpr hkey]
    exact map_eq_ok_iff.mpr ⟨_, decodeFormat_of_names h, rfl⟩

/-- An entry that is misfit is refused as its fault says. -/
theorem readSetting_of_misfit {entry : Key × Node} {located : Located} (h : Misfit entry located) :
    readSetting entry = .error located := by
  cases h with
  | unknownKey h => rw [readSetting, Field.ofName?_eq_none_iff.mpr h]
  | language hkey h =>
    rw [readSetting, Field.ofName?_eq_some_iff.mpr hkey]
    exact map_eq_error_iff.mpr (decodeString_of_not_string h)
  | fenceMarkers hkey h =>
    rw [readSetting, Field.ofName?_eq_some_iff.mpr hkey]
    exact map_eq_error_iff.mpr (decodeStrings_of_not_items h)
  | @fenceMarker _ _ item before after hkey h hbefore hitem =>
    rw [readSetting, Field.ofName?_eq_some_iff.mpr hkey]
    refine map_eq_error_iff.mpr ?_
    rw [decodeStrings_of_items h, mapM_eq_error_iff]
    refine ⟨before, item, after, rfl, ?_, decodeString_of_not_string hitem⟩
    intro earlier hmem
    obtain ⟨text, htext⟩ := hbefore earlier hmem
    exact ⟨text, decodeString_of_string htext⟩
  | format hkey h =>
    rw [readSetting, Field.ofName?_eq_some_iff.mpr hkey]
    exact map_eq_error_iff.mpr (decodeFormat_of_misnames h)

/-- Every entry sets something or is at fault. -/
theorem sets_or_misfit (entry : Key × Node) :
    (∃ setting, Sets entry setting) ∨ ∃ located, Misfit entry located := by
  obtain ⟨key, node⟩ := entry
  -- by the field that the key names, then by the kind of value that the field takes
  cases hfield : Field.ofName? key.name with
  | none => exact Or.inr ⟨_, .unknownKey (Field.ofName?_eq_none_iff.mp hfield)⟩
  | some field =>
    have hkey := Field.ofName?_eq_some_iff.mp hfield
    cases field with
    | language =>
      cases hstring : node.string? with
      | none => exact Or.inr ⟨_, .language hkey hstring⟩
      | some name => exact Or.inl ⟨_, .language hkey hstring⟩
    | fenceMarkers =>
      cases hitems : node.items? with
      | none => exact Or.inr ⟨_, .fenceMarkers hkey hitems⟩
      | some items =>
        rcases forall₂_or_first (fun item text => item.string? = some text) items with
          ⟨markers, hmarkers⟩ | ⟨before, item, after, rfl, hbefore, hitem⟩
        · exact Or.inl ⟨_, .fenceMarkers hkey hitems hmarkers⟩
        · rw [← Option.eq_none_iff_forall_ne_some] at hitem
          exact Or.inr ⟨_, .fenceMarker hkey hitems hbefore hitem⟩
    | format =>
      rcases names_or_misnames key.span node with ⟨format, h⟩ | ⟨located, h⟩
      · exact Or.inl ⟨_, .format hkey h⟩
      · exact Or.inr ⟨_, .format hkey h⟩

/-- So a setting is read from an entry exactly if the entry sets it. -/
theorem readSetting_eq_ok_iff {entry : Key × Node} {setting : Setting} :
    readSetting entry = .ok setting ↔ Sets entry setting := by
  constructor
  · intro h
    rcases sets_or_misfit entry with ⟨setting', hsets⟩ | ⟨located, hmisfit⟩
    · obtain rfl := Except.ok.inj (h.symm.trans (readSetting_of_sets hsets))
      exact hsets
    · cases h.symm.trans (readSetting_of_misfit hmisfit)
  · exact readSetting_of_sets

/-- And an entry is refused exactly if it is misfit. -/
theorem readSetting_eq_error_iff {entry : Key × Node} {located : Located} :
    readSetting entry = .error located ↔ Misfit entry located := by
  constructor
  · intro h
    rcases sets_or_misfit entry with ⟨setting, hsets⟩ | ⟨located', hmisfit⟩
    · cases h.symm.trans (readSetting_of_sets hsets)
    · obtain rfl := Except.error.inj (h.symm.trans (readSetting_of_misfit hmisfit))
      exact hmisfit
  · exact readSetting_of_misfit

/-- A table gives the configuration that all of its entries set, one after the other. -/
theorem ofTable_eq_ok_iff {table : Table Node} {config : Config} :
    ofTable table = .ok config ↔
      ∃ settings, List.Forall₂ Sets table.entries settings ∧
        settings.foldl set standard = config := by
  simp only [ofTable_eq, map_eq_ok_iff, mapM_eq_ok_iff, readSetting_eq_ok_iff]

/-- A table is refused for the first of its entries that is misfit. -/
theorem ofTable_eq_error_iff {table : Table Node} {located : Located} :
    ofTable table = .error located ↔
      ∃ before entry after, table.entries = before ++ entry :: after ∧
        (∀ earlier ∈ before, ∃ setting, Sets earlier setting) ∧ Misfit entry located := by
  simp only [ofTable_eq, map_eq_error_iff, mapM_eq_error_iff, readSetting_eq_ok_iff,
    readSetting_eq_error_iff]

end Config

end FencedCode
