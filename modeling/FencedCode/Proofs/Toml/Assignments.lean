import FencedCode.Proofs.Config.Settings
import FencedCode.Proofs.Toml.DistinctKeys
import FencedCode.Proofs.Toml.Strings
import FencedCode.Toml.Document

/-!
# Assignments written down

A list of texts is written as an array of strings on one line, and an assignment as a key without
quotes, an equals sign and a value. The reader takes back the strings of such an array
(`run_value_quoteList`), the line of such an assignment (`run_line_assignment`), and lines of
assignments with different keys make up the table of these keys and values, in the order of the
lines (`assemble_of_sections`).
-/
namespace FencedCode.Toml

open Reader

/-! ## Arrays of strings -/

/-- Texts as an array of strings on one line, with blanks after the commas. -/
def StringStyle.quoteList (style : StringStyle) (gap : Text) (ts : List Text) : Text :=
  '[' :: ((',' :: gap).intercalate (ts.map style.quote) ++ [']'])

/-- Separated texts are the first of them and then each with the separator before it. -/
theorem intercalate_cons_eq_flatMap (separator : Text) (t : Text) (ts : List Text) :
    separator.intercalate (t :: ts) = t ++ ts.flatMap (separator ++ ·) := by
  induction ts generalizing t with
  | nil => rw [List.intercalate_singleton, List.flatMap_nil, List.append_nil]
  | cons next ts ih =>
    rw [List.intercalate_cons_cons, ih, List.flatMap_cons]
    simp only [List.append_assoc]

section

variable {gap s r : Text} {c : Char}

/-- Nothing else is taken for a line end. -/
theorem run_newline_of_ne (hn : c ≠ '\n') (hr : c ≠ '\r') (s : Text) :
    newline.run (c :: s) = none := by
  have hword : (Reader.word '\n' []).run (c :: s) = none :=
    run_map_of_none _ (run_exactly_of_ne hn s)
  rw [newline, run_orElse_right hword]
  exact run_right_of_none (run_exactly_of_ne hr s)

/-- Between the items of an array other characters than blanks, line ends and comments are met. -/
theorem run_lineBreaks_cons (hc : c ∉ [' ', '\t', '\n', '\r', '#']) (s : Text) :
    lineBreaks.run (c :: s) = some (c :: s) := by
  simp only [List.mem_cons, List.not_mem_nil, or_false, not_or] at hc
  obtain ⟨hblank, htab, hnewline, hreturn, hhash⟩ := hc
  have hnot : isBlank c = false := by
    simp [isBlank, hblank, htab]
  refine Filler.run_many_of_none ?_
  rw [run_orElse_right (run_map_of_none _ (run_char_cons_of_not hnot s))]
  rw [run_orElse_right (run_newline_of_ne hnewline hreturn s)]
  exact run_map_of_none _ (run_before_of_none (run_exactly_of_ne hhash s))

/-- Blanks in front make no difference there. -/
theorem run_lineBreaks_append (hgap : ∀ c ∈ gap, isBlank c = true) (s : Text) :
    lineBreaks.run (gap ++ s) = lineBreaks.run s := by
  induction gap with
  | nil => rfl
  | cons c gap ih =>
    obtain ⟨hc, hgap⟩ := List.forall_mem_cons.mp hgap
    rw [← ih hgap]
    exact Filler.run_many_of_some (run_orElse_left (run_map _ (run_char_cons hc _)))

/-- How a text may go on after an item of an array. -/
def FollowsItem (r : Text) : Prop :=
  ∃ c s, r = c :: s ∧ (c = ',' ∨ c = ']')

/-- What follows an item starts with no line break. -/
theorem FollowsItem.run_lineBreaks (h : FollowsItem r) : lineBreaks.run r = some r := by
  obtain ⟨c, s, rfl, rfl | rfl⟩ := h
  · exact run_lineBreaks_cons (by decide) s
  · exact run_lineBreaks_cons (by decide) s

/-- Nor does it start with a quotation mark. -/
theorem FollowsItem.head?_ne (h : FollowsItem r) : r.head? ≠ some '"' := by
  obtain ⟨c, s, rfl, rfl | rfl⟩ := h
  · simp
  · simp

/-- A string is read as an item, with the blanks before it. -/
theorem run_item_quote (style : StringStyle) (depth : Nat) (hgap : ∀ c ∈ gap, isBlank c = true)
    (hr : FollowsItem r) (t : Text) :
    ∃ item : Node, item.string? = some t ∧
      (((value depth).after lineBreaks).before lineBreaks).run (gap ++ (style.quote t ++ r)) =
        some (item, r) := by
  have hbefore : lineBreaks.run (gap ++ (style.quote t ++ r)) = some (style.quote t ++ r) := by
    rw [run_lineBreaks_append hgap]
    exact run_lineBreaks_cons (by decide) _
  exact ⟨_, rfl, run_before (run_after hbefore (run_value_quote style depth hr.head?_ne t))
    hr.run_lineBreaks⟩

/-- Strings with commas between them are read one by one. -/
theorem run_items_quote (style : StringStyle) (depth : Nat) (hgap : ∀ c ∈ gap, isBlank c = true)
    (t : Text) (ts : List Text) (r : Text) :
    ∃ items : List Node, List.Forall₂ (fun item t => item.string? = some t) items (t :: ts) ∧
      ((((value depth).after lineBreaks).before lineBreaks).sepBy (.exactly ',')).run
        ((',' :: gap).intercalate ((t :: ts).map style.quote) ++ ']' :: r) =
          some (items, ']' :: r) := by
  -- all strings but the first have a comma in front
  let further (t : Text) : Text := ',' :: (gap ++ style.quote t)
  have hend : FollowsItem (']' :: r) := ⟨']', r, rfl, Or.inr rfl⟩
  have hfurther (t r : Text) : FollowsItem (further t ++ r) := ⟨',', _, rfl, Or.inl rfl⟩
  have hread (t : Text) (_ : t ∈ ts) (r : Text) (hr : FollowsItem r) :
      ∃ item : Node, item.string? = some t ∧
        ((Reader.exactly ',').right (((value depth).after lineBreaks).before lineBreaks)).run
          (further t ++ r) = some (item, r) := by
    obtain ⟨item, hitem, hrun⟩ := run_item_quote style depth hgap hr t
    rw [← List.append_assoc] at hrun
    exact ⟨item, hitem, run_right (run_exactly ',' _) hrun⟩
  obtain ⟨items, hitems, hmany⟩ := many_flatMap_of_follow hread (fun t _ r => hfurther t r) hend
    (run_right_of_none (run_exactly_of_ne (by decide) r))
  have hnext : FollowsItem (ts.flatMap further ++ ']' :: r) := by
    cases ts with
    | nil => exact hend
    | cons next ts =>
      rw [List.flatMap_cons, List.append_assoc]
      exact hfurther next _
  obtain ⟨item, hitem, hfirst⟩ := run_item_quote style depth (List.forall_mem_nil _) hnext t
  refine ⟨item :: items, .cons hitem hitems, ?_⟩
  rw [List.map_cons, intercalate_cons_eq_flatMap, List.flatMap_map, List.append_assoc]
  exact run_sepBy hfirst hmany

/-- An array of strings is read as the values of these strings. -/
theorem run_array_quoteList (style : StringStyle) (depth : Nat)
    (hgap : ∀ c ∈ gap, isBlank c = true) (ts : List Text) (r : Text) :
    ∃ items : List Node, List.Forall₂ (fun item t => item.string? = some t) items ts ∧
      (array (value depth)).run (style.quoteList gap ts ++ r) = some (items, r) := by
  have hclose : lineBreaks.run (']' :: r) = some (']' :: r) :=
    run_lineBreaks_cons (by decide) r
  cases ts with
  | nil =>
    exact ⟨[], .nil, run_orElse_left (run_map _ (run_left
      (run_before (run_exactly '[' _) hclose) (run_exactly ']' r)))⟩
  | cons t ts =>
    obtain ⟨items, hitems, hrun⟩ := run_items_quote style depth hgap t ts r
    refine ⟨items, hitems, ?_⟩
    have htext : style.quoteList gap (t :: ts) ++ r =
        '[' :: ((',' :: gap).intercalate ((t :: ts).map style.quote) ++ ']' :: r) := by
      simp [StringStyle.quoteList]
    -- the first alternative is the array without items, which fails at the first of them
    have hempty : (((Reader.exactly '[').before lineBreaks).left (.exactly ']')).run
        ('[' :: ((',' :: gap).intercalate ((t :: ts).map style.quote) ++ ']' :: r)) = none := by
      rw [List.map_cons, intercalate_cons_eq_flatMap]
      exact run_left_of_some_none
        (run_before (run_exactly '[' _) (run_lineBreaks_cons (by decide) _))
        (run_exactly_of_ne (by decide) _)
    have hnoComma : (Filler.optional (Reader.exactly ',')).run (']' :: r) = some (']' :: r) :=
      Filler.run_optional_of_none (run_exactly_of_ne (by decide) r)
    rw [htext, array, run_orElse_right (run_map_of_none _ hempty)]
    exact run_left (run_before (run_right (run_exactly '[' _) hrun)
      (Filler.run_seq hnoComma hclose)) (run_exactly ']' r)

/-- No scalar starts with a bracket. -/
theorem run_scalar_bracket (s : Text) : scalar.run ('[' :: s) = none := by
  rfl

/-- An array of strings is read as a value. -/
theorem run_value_quoteList (style : StringStyle) (depth : Nat)
    (hgap : ∀ c ∈ gap, isBlank c = true) (ts : List Text) (r : Text) :
    ∃ items span, List.Forall₂ (fun item t => Node.string? item = some t) items ts ∧
      (value (depth + 1)).run (style.quoteList gap ts ++ r) = some (.array items span, r) := by
  obtain ⟨items, hitems, harray⟩ := run_array_quoteList style depth hgap ts r
  refine ⟨items, ⟨style.quoteList gap ts ++ r, r⟩, hitems, ?_⟩
  have hscalar : scalar.run (style.quoteList gap ts ++ r) = none := run_scalar_bracket _
  rw [value, run_orElse_right (run_map_of_none _ (run_spanned_of_none hscalar))]
  exact run_orElse_left (run_map _ (run_spanned harray))

end

/-! ## Lines -/

/-- A key that can be written without quotes. -/
structure IsBareKey (name : Text) : Prop where
  ne_nil : name ≠ []
  bare : ∀ c ∈ name, isBareKeyChar c = true

section

variable {name s r tail rest : Text} {c : Char} {node : Node}

/-- A character of a bare key is none that has a meaning at the start of a line. -/
theorem ne_of_isBareKeyChar {d : Char} (hc : isBareKeyChar c = true)
    (hd : isBareKeyChar d = false) : c ≠ d := by
  rintro rfl
  rw [hc] at hd
  cases hd

/-- No blank is skipped in front of a key. -/
theorem run_blanks_cons (hc : isBareKeyChar c = true) (s : Text) :
    blanks.run (c :: s) = some (c :: s) := by
  refine Filler.run_dropWhile_cons_of_not ?_ s
  have hblank := ne_of_isBareKeyChar hc (by decide : isBareKeyChar ' ' = false)
  have htab := ne_of_isBareKeyChar hc (by decide : isBareKeyChar '\t' = false)
  simp [isBlank, hblank, htab]

/-- A bare key has a first character. -/
theorem IsBareKey.exists_eq_cons (h : IsBareKey name) :
    ∃ c w, name = c :: w ∧ isBareKeyChar c = true ∧ ∀ d ∈ w, isBareKeyChar d = true := by
  obtain ⟨hne, hbare⟩ := h
  cases name with
  | nil => exact absurd rfl hne
  | cons c w => exact ⟨c, w, rfl, List.forall_mem_cons.mp hbare⟩

/-- No string starts with a character of a bare key. -/
theorem run_lineString_cons (hc : isBareKeyChar c = true) (s : Text) :
    lineString.run (c :: s) = none := by
  have hquote := ne_of_isBareKeyChar hc (by decide : isBareKeyChar '"' = false)
  have hapostrophe := ne_of_isBareKeyChar hc (by decide : isBareKeyChar '\'' = false)
  have hbasic : basicString.run (c :: s) = none :=
    run_map_of_none _ (run_seq_of_none (run_map_of_none _ (run_andMany_of_none
      (run_map_of_none _ (run_exactly_of_ne hquote _)))))
  rw [lineString, run_orElse_right hbasic]
  exact run_map_of_none _ (run_seq_of_none (run_map_of_none _ (run_andMany_of_none
    (run_map_of_none _ (run_exactly_of_ne hapostrophe _)))))

/-- A bare key is read up to a blank. -/
theorem run_simpleKey (h : IsBareKey name) (s : Text) :
    simpleKey.run (name ++ ' ' :: s) =
      some (⟨name, ⟨name ++ ' ' :: s, ' ' :: s⟩⟩, ' ' :: s) := by
  obtain ⟨c, w, rfl, hc, hw⟩ := h.exists_eq_cons
  have hmany : (Reader.char isBareKeyChar).many (w ++ ' ' :: s) = (w, ' ' :: s) :=
    many_char hw (run_char_cons_of_not (by decide) _)
  refine run_map _ (run_spanned ?_)
  rw [List.cons_append, run_orElse_right (run_lineString_cons hc _)]
  exact run_oneOrMore (run_char_cons hc _) hmany

/-- A bare key in front of an equals sign is a key without dots. -/
theorem run_dottedKey (h : IsBareKey name) (s : Text) :
    ∃ key : Key, key.name = name ∧
      dottedKey.run (name ++ ' ' :: '=' :: s) = some (([], key), '=' :: s) := by
  have hstart : blanks.run (name ++ ' ' :: '=' :: s) = some (name ++ ' ' :: '=' :: s) := by
    obtain ⟨c, w, rfl, hc, -⟩ := h.exists_eq_cons
    exact run_blanks_cons hc _
  have hblank : blanks.run (' ' :: '=' :: s) = some ('=' :: s) := rfl
  have hpart := run_before (run_after hstart (run_simpleKey h _)) hblank
  have hdot : ((Reader.exactly '.').right ((simpleKey.after blanks).before blanks)).many
      ('=' :: s) = ([], '=' :: s) :=
    many_none (run_right_of_none (run_exactly_of_ne (by decide) s))
  exact ⟨_, rfl, run_filterMap (run_sepBy hpart hdot) rfl⟩

/-- A line that starts with a character of a bare key is neither blank nor a header. -/
theorem run_line_cons (hc : isBareKeyChar c = true)
    {assignment' : Table.Assignment}
    (h : (assignment (value depthLimit)).run (c :: s) = some (assignment', tail))
    (hend : endOfLine.run tail = some rest) :
    line.run (c :: s) = some (.assignment assignment', rest) := by
  have hcomment : comment.run (c :: s) = none :=
    run_map_of_none _ (run_before_of_none (run_exactly_of_ne
      (ne_of_isBareKeyChar hc (by decide)) s))
  have hnewline : newline.run (c :: s) = none :=
    run_newline_of_ne (ne_of_isBareKeyChar hc (by decide)) (ne_of_isBareKeyChar hc (by decide)) s
  have hbracket : (Reader.exactly '[').run (c :: s) = none :=
    run_exactly_of_ne (ne_of_isBareKeyChar hc (by decide)) s
  have hbrackets : (Reader.word '[' ['[']).run (c :: s) = none :=
    run_right_of_none hbracket
  -- the kinds of lines in the order in which they are tried
  refine run_after (run_blanks_cons hc _) ?_
  rw [run_orElse_right (run_map_of_none _ (run_before_of_none hcomment)),
    run_orElse_right (run_map_of_none _ hnewline),
    run_orElse_right (run_map_of_none _ (run_before_of_none (run_spanned_of_none
      (run_right_of_none hbrackets)))),
    run_orElse_right (run_map_of_none _ (run_before_of_none (run_spanned_of_none
      (run_right_of_none hbracket))))]
  exact run_map _ (run_before h hend)

/-- The line of an assignment is read as that, up to the end of the line. -/
theorem run_line_assignment (h : IsBareKey name) {value' : Text}
    (hstart : blanks.run (value' ++ tail) = some (value' ++ tail))
    (hvalue : (value depthLimit).run (value' ++ tail) = some (node, tail))
    (hend : endOfLine.run tail = some rest) :
    ∃ key : Key, key.name = name ∧
      line.run (name ++ ' ' :: '=' :: ' ' :: (value' ++ tail)) =
        some (.assignment ⟨[], key, node⟩, rest) := by
  obtain ⟨key, hkey, hdotted⟩ := run_dottedKey h (' ' :: (value' ++ tail))
  have hblank : blanks.run (' ' :: (value' ++ tail)) = some (value' ++ tail) := hstart
  have hassignment : (assignment (value depthLimit)).run
      (name ++ ' ' :: '=' :: ' ' :: (value' ++ tail)) = some (⟨[], key, node⟩, tail) :=
    run_map _ (run_seq hdotted (run_right (run_exactly '=' _) (run_after hblank hvalue)))
  obtain ⟨c, w, rfl, hc, -⟩ := h.exists_eq_cons
  exact ⟨key, hkey, run_line_cons hc hassignment hend⟩

end

/-! ## Tables -/

/-- The entry of an assignment. -/
def Table.Assignment.entry (a : Table.Assignment) : Key × Node :=
  (a.key, a.value)

section

variable {below : List Table.Assignment} {a : Table.Assignment} {entries : List (Key × Node)}

/-- A name that no key of a table has finds nothing in it. -/
theorem get?_eq_none_of_not_mem_names {ν : Type} {table : Table ν} {name : Text}
    (h : name ∉ Table.names table.entries) : table.get? name = none := by
  rw [Table.get?, Option.map_eq_none_iff, List.find?_eq_none]
  intro entry hentry hname
  exact h (List.mem_map.mpr ⟨entry, hentry, beq_iff_eq.mp hname⟩)

/-- A new key without dots goes to the end of a document. -/
theorem assign_root (hpath : a.path = []) (hnew : a.key.name ∉ Table.names entries) :
    Table.assign ⟨.root, entries⟩ a = some ⟨.root, entries ++ [a.entry]⟩ := by
  have hget : Table.get? (⟨.root, entries⟩ : Table Node) a.key.name = none :=
    get?_eq_none_of_not_mem_names hnew
  rw [Table.assign, hpath, Table.descend, hget]
  rfl

/-- Different keys without dots make up a document in their order. -/
theorem foldlM_assign_root (entries : List (Key × Node)) (hpath : ∀ a ∈ below, a.path = [])
    (hdistinct : (Table.names (entries ++ below.map Table.Assignment.entry)).Nodup) :
    below.foldlM Table.assign ⟨.root, entries⟩ =
      some ⟨.root, entries ++ below.map Table.Assignment.entry⟩ := by
  -- the entries made so far go along, and no key that is left is among theirs
  induction below generalizing entries with
  | nil =>
    rw [List.map_nil, List.append_nil]
    rfl
  | cons a below ih =>
    obtain ⟨ha, hbelow⟩ := List.forall_mem_cons.mp hpath
    rw [List.map_cons, List.append_cons] at hdistinct ⊢
    have hnew : a.key.name ∉ Table.names entries := by
      have hfront := hdistinct
      rw [Table.names, List.map_append, List.map_append] at hfront
      have hconcat := (List.nodup_append'.mp hfront).1
      intro hmem
      exact (List.nodup_append'.mp hconcat).2.2 hmem List.mem_cons_self
    rw [List.foldlM_cons, assign_root ha hnew]
    exact ih _ hbelow hdistinct

/-- Lines that are assignments of different keys make up the document of these. -/
theorem assemble_of_sections {lines : List Line} (h : sections lines = (below, []))
    (hpath : ∀ a ∈ below, a.path = [])
    (hdistinct : (Table.names (below.map Table.Assignment.entry)).Nodup) :
    assemble lines = some ⟨.root, below.map Table.Assignment.entry⟩ := by
  have hfold := foldlM_assign_root [] hpath hdistinct
  rw [assemble, h]
  exact Option.bind_eq_some_iff.mpr ⟨_, hfold, rfl⟩

end

end FencedCode.Toml
