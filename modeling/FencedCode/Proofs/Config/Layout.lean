import FencedCode.Proofs.Config.Acceptance
import FencedCode.Proofs.Toml.Assignments

/-!
# Configurations written down

A configuration is written as a text of one line for each setting. The lines may stand in any order,
and a setting that is as in the standard configuration may be left out (`Layout.Covers`). Each line
is read as an entry that sets what the configuration holds (`Layout.run_line`), so the text is
well-formed and its table describes the configuration (`Layout.exists_parse?_text`). Hence a valid
configuration is read back from its text, and from the text of an invalid one its fault
(`parse_layout_text`).
-/
namespace FencedCode

open Toml Reader

/-- The choices in writing a configuration down. -/
structure Config.Layout where
  /-- the settings that have a line, in the order of the lines -/
  fields : List Field
  nodup : fields.Nodup
  /-- how the strings are written -/
  style : StringStyle
  /-- the blanks after a comma between markers -/
  gap : Text
  gap_blank : ∀ c ∈ gap, isBlank c = true
  /-- whether a newline ends the last line -/
  ended : Bool

namespace Config.Layout

/-- The value of a setting: a string, or an array of strings. -/
def value (layout : Layout) : Setting → Text
  | .language name => layout.style.quote name
  | .fenceMarkers markers => layout.style.quoteList layout.gap markers
  | .format format => '"' :: (format.name ++ ['"'])

/-- The line of a setting. -/
def line (layout : Layout) (config : Config) (field : Field) : Text :=
  field.name ++ ' ' :: '=' :: ' ' :: layout.value (config.get field)

/-- What follows the last line. -/
def ending (layout : Layout) : Text :=
  if layout.ended then ['\n'] else []

/-- The text of a configuration. -/
def text (layout : Layout) (config : Config) : Text :=
  ['\n'].intercalate (layout.fields.map (layout.line config)) ++ layout.ending

/-- A configuration is laid out in full: settings without a line are as in the standard one. -/
def Covers (layout : Layout) (config : Config) : Prop :=
  ∀ field, field ∉ layout.fields → config.get field = Config.standard.get field

/-! ## Reading -/

variable (layout : Layout) (config : Config)

/-- The names of the fields can be written as bare keys. -/
theorem isBareKey_name (field : Field) : IsBareKey field.name := by
  cases field with
  | language => exact ⟨by decide, List.all_eq_true.mp rfl⟩
  | fenceMarkers => exact ⟨by decide, List.all_eq_true.mp rfl⟩
  | format => exact ⟨by decide, List.all_eq_true.mp rfl⟩

/-- Nothing in the name of a format needs an escape. -/
theorem quote_name (style : StringStyle) (format : Format) :
    style.quote format.name = '"' :: (format.name ++ ['"']) := by
  cases format with
  | records => rfl
  | json => rfl

/-- The value of a setting is read as one that sets it. -/
theorem run_value (field : Field) {tail : Text} (htail : tail.head? ≠ some '"') :
    ∃ node : Node, (∀ key : Key, key.name = field.name → Sets (key, node) (config.get field)) ∧
      (Toml.value depthLimit).run (layout.value (config.get field) ++ tail) =
        some (node, tail) := by
  cases field with
  | language =>
    exact ⟨_, fun _ hkey => .language hkey rfl, run_value_quote layout.style depthLimit htail _⟩
  | fenceMarkers =>
    obtain ⟨items, span, hitems, hrun⟩ := run_value_quoteList layout.style (depthLimit - 1)
      layout.gap_blank config.fenceMarkers tail
    exact ⟨.array items span, fun _ hkey => .fenceMarkers hkey rfl hitems, hrun⟩
  | format =>
    have hrun := run_value_quote layout.style depthLimit htail config.format.name
    rw [quote_name] at hrun
    exact ⟨_, fun _ hkey => .format hkey (.string rfl), hrun⟩

/-- A value starts with a quote or a bracket, so no blanks are passed over before it. -/
theorem run_blanks_value (setting : Setting) (tail : Text) :
    blanks.run (layout.value setting ++ tail) = some (layout.value setting ++ tail) := by
  -- the first character is known once it is known what is set
  cases setting with
  | language name => exact Filler.run_dropWhile_cons_of_not (by decide) _
  | fenceMarkers markers => exact Filler.run_dropWhile_cons_of_not (by decide) _
  | format format => exact Filler.run_dropWhile_cons_of_not (by decide) _

/-- The line of a setting is read as an assignment that sets it. -/
theorem run_line (field : Field) {tail rest : Text} (htail : tail.head? ≠ some '"')
    (hend : endOfLine.run tail = some rest) :
    ∃ a : Table.Assignment, a.path = [] ∧ Sets a.entry (config.get field) ∧
      Toml.line.run (layout.line config field ++ tail) = some (.assignment a, rest) := by
  obtain ⟨node, hsets, hvalue⟩ := layout.run_value config field htail
  obtain ⟨key, hkey, hline⟩ := run_line_assignment (isBareKey_name field)
    (layout.run_blanks_value (config.get field) tail) hvalue hend
  refine ⟨⟨[], key, node⟩, rfl, hsets key hkey, ?_⟩
  rw [line, List.append_assoc]
  exact hline

/-- All lines are read, and each as an assignment that sets what its line is for. -/
theorem exists_many_line (fields : List Field) :
    ∃ lines below, Toml.line.many
        (['\n'].intercalate (fields.map (layout.line config)) ++ layout.ending) = (lines, []) ∧
      sections lines = (below, []) ∧ (∀ a ∈ below, a.path = []) ∧
      List.Forall₂ (fun a field => Sets a.entry (config.get field)) below fields := by
  have hempty : Toml.line.many [] = ([], []) := many_none rfl
  -- by induction on the settings; what ends a line is a newline or, for the last, the ending
  induction fields with
  | nil =>
    rw [List.map_nil, ending]
    split_ifs
    · have hnewline : Toml.line.run ['\n'] = some (.empty, []) := rfl
      refine ⟨[.empty], [], ?_, rfl, List.forall_mem_nil _, .nil⟩
      exact (many_some hnewline).trans (by rw [hempty])
    · exact ⟨[], [], hempty, rfl, List.forall_mem_nil _, .nil⟩
  | cons field fields ih =>
    cases fields with
    | nil =>
      have hending : layout.ending.head? ≠ some '"' ∧
          endOfLine.run layout.ending = some [] := by
        rw [ending]
        split_ifs
        · exact ⟨by decide, rfl⟩
        · exact ⟨by decide, rfl⟩
      obtain ⟨a, hpath, hsets, hrun⟩ := layout.run_line config field hending.1 hending.2
      refine ⟨[.assignment a], [a], ?_, rfl, ?_, .cons hsets .nil⟩
      · rw [List.map_singleton, List.intercalate_singleton, many_some hrun, hempty]
      · exact List.forall_mem_singleton.mpr hpath
    | cons next fields =>
      obtain ⟨lines, below, hmany, hsections, hpaths, hall⟩ := ih
      rw [List.map_cons] at hmany
      let rest : Text := ['\n'].intercalate
        (layout.line config next :: fields.map (layout.line config)) ++ layout.ending
      have hnext : ('\n' :: rest).head? ≠ some '"' := by simp
      obtain ⟨a, hpath, hsets, hrun⟩ := layout.run_line config field hnext rfl
      refine ⟨.assignment a :: lines, a :: below, ?_, ?_, ?_, .cons hsets hall⟩
      · rw [List.map_cons, List.map_cons, List.intercalate_cons_cons, List.append_assoc,
          List.append_assoc, List.singleton_append, many_some hrun, hmany]
      · rw [sections, hsections]
      · exact List.forall_mem_cons.mpr ⟨hpath, hpaths⟩

/-- Only a byte order mark is dropped in front of a text. -/
theorem dropMark_of_head?_ne {text : Text} (h : text.head? ≠ some '\ufeff') :
    dropMark text = text := by
  rw [dropMark]
  rintro rest rfl
  exact h rfl

/-- The text starts with the name of a setting, if with anything but a newline, and so with no byte
order mark. -/
theorem dropMark_text : dropMark (layout.text config) = layout.text config := by
  apply dropMark_of_head?_ne
  rw [text]
  cases layout.fields with
  | nil =>
    rw [List.map_nil, ending]
    split_ifs
    · decide
    · decide
  | cons field fields =>
    rw [List.map_cons, intercalate_cons_eq_flatMap, line, List.append_assoc, List.append_assoc]
    cases field with
    | language => exact fun h => absurd (Option.some.inj h) (by decide)
    | fenceMarkers => exact fun h => absurd (Option.some.inj h) (by decide)
    | format => exact fun h => absurd (Option.some.inj h) (by decide)

/-- The text of a configuration is well-formed and describes that configuration. -/
theorem exists_parse?_text (h : layout.Covers config) :
    ∃ table, Toml.parse? (layout.text config) = some table ∧ config.IsDescribedBy table := by
  obtain ⟨lines, below, hmany, hsections, hpaths, hall⟩ :=
    layout.exists_many_line config layout.fields
  have hnames : Table.names (below.map Table.Assignment.entry) =
      layout.fields.map Field.name := by
    have hsets : List.Forall₂ Sets (below.map Table.Assignment.entry)
        (layout.fields.map config.get) := by
      rw [List.forall₂_map_left_iff, List.forall₂_map_right_iff]
      exact hall
    rw [Config.names_eq_of_forall₂ hsets, List.map_map, List.map_map]
    exact List.map_congr_left fun field _ => congrArg Field.name (Config.field_get config field)
  -- no setting is laid out twice, so the lines can be put together to a table
  have hdistinct : (Table.names (below.map Table.Assignment.entry)).Nodup := by
    rw [hnames]
    exact layout.nodup.map fun _ _ => Field.name_injective
  refine ⟨⟨.root, below.map Table.Assignment.entry⟩, ?_, ?_, ?_⟩
  · rw [parse?, dropMark_text]
    simp only [text, hmany]
    exact assemble_of_sections hsections hpaths hdistinct
  · intro entry hentry
    obtain ⟨a, ha, rfl⟩ := List.mem_map.mp hentry
    obtain ⟨field, -, hsets⟩ := exists_mem_of_forall₂ hall ha
    exact ⟨field, hsets⟩
  · intro field hunset
    apply h field
    intro hmem
    rw [hnames] at hunset
    exact hunset (List.mem_map_of_mem hmem)

end Config.Layout

namespace Config

/-- **Configurations are read back from their texts.** However a configuration is laid out, with its
settings in any order and those left out that are as in the standard one, its text gives just this
configuration if it is valid, and otherwise the fault that validation finds in it. -/
theorem parse_layout_text {layout : Layout} {config : Config} (h : layout.Covers config) :
    (config.validate = .ok () → parse (layout.text config) = .ok config) ∧
      ∀ tag, config.validate = .error tag →
        parse (layout.text config) = .error (.invalid tag) := by
  obtain ⟨table, htable, hdescribed⟩ := layout.exists_parse?_text config h
  have hconfig : ofTable table = .ok config :=
    (ofTable_eq_ok_iff_isDescribedBy (distinct_of_parse? htable)).mpr hdescribed
  constructor
  · intro hvalid
    exact (parse_eq_iff htable).mpr (Or.inr (Or.inr ⟨config, hconfig, hvalid, rfl⟩))
  · intro tag hinvalid
    exact (parse_eq_iff htable).mpr (Or.inr (Or.inl ⟨config, tag, hconfig, hinvalid, rfl⟩))

/-- The last setting first and the language left out, with a quote, a backslash, a control and
brackets in the markers; and the same with a newline in a marker. -/
theorem parse_layout_text_reordered :
    let layout : Layout :=
      { fields := [.format, .fenceMarkers]
        nodup := by decide
        style := .plain
        gap := [' ']
        gap_blank := List.forall_mem_singleton.mpr rfl
        ended := false }
    let config : Config := ⟨"rust".toList, ["h\"#".toList, "\x01\\]".toList], .json⟩
    let invalid : Config := { config with fenceMarkers := ["a\nb".toList] }
    (layout.Covers config ∧ layout.Covers invalid) ∧
      layout.text config =
        "format = \"json\"\nfence_markers = [\"h\\\"#\", \"\\u0001\\\\]\"]".toList ∧
      parse (layout.text config) = .ok config ∧
      parse (layout.text invalid) = .error (.invalid ⟨.marker, "a\nb".toList, .blank⟩) := by
  intro layout config invalid
  have hcovers (markers : List Text) :
      layout.Covers { config with fenceMarkers := markers } := by
    intro field hfield
    cases field with
    | language => rfl
    | fenceMarkers => exact absurd (by decide) hfield
    | format => exact absurd (by decide) hfield
  refine ⟨⟨hcovers _, hcovers _⟩, by decide +kernel, ?_, ?_⟩
  · exact (parse_layout_text (hcovers config.fenceMarkers)).1 (by decide +kernel)
  · exact (parse_layout_text (hcovers invalid.fenceMarkers)).2 _ (by decide +kernel)

end Config

end FencedCode
