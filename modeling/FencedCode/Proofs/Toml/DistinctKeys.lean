import FencedCode.Toml.Document
import Mathlib.Data.List.Nodup

/-!
# The keys of a document

The table that a text stands for holds no key twice (`distinct_of_parse?`). Each line of the text
keeps this: it adds a key that was not there, or changes what is below a key that was, or moves a
key to the end.
-/
namespace FencedCode.Toml

namespace Table

/-- The names of the keys of a table, in the order of the table. -/
def names {ν : Type} (entries : List (Key × ν)) : List Text :=
  entries.map fun entry => entry.1.name

/-- No key stands in a table twice. -/
def Distinct {ν : Type} (table : Table ν) : Prop :=
  (names table.entries).Nodup

/-! ## One change -/

section

variable {ν : Type} {table : Table ν} {key : Key} {name : Text}

/-- What is not found under a name has no key of that name. -/
theorem not_mem_names_of_get?_eq_none (h : table.get? name = none) :
    name ∉ names table.entries := by
  rw [get?, Option.map_eq_none_iff, List.find?_eq_none] at h
  intro hmem
  obtain ⟨entry, hentry, rfl⟩ := List.mem_map.mp hmem
  exact h entry hentry (beq_self_eq_true _)

/-- A new name at the end leaves the names distinct. -/
theorem Distinct.names_concat (h : table.Distinct) (hnew : name ∉ names table.entries) :
    (names table.entries ++ [name]).Nodup := by
  rw [← List.concat_eq_append]
  exact List.Nodup.concat hnew h

/-- A change at a key keeps the keys, or adds the one that is not there. -/
theorem names_alter {f : Option ν → Option ν} {entries entries' : List (Key × ν)}
    (h : alter key f entries = some entries') :
    names entries' = names entries ∨
      key.name ∉ names entries ∧ names entries' = names entries ++ [key.name] := by
  -- the key is found at the first entry of its name, or added behind the last entry
  induction entries generalizing entries' with
  | nil =>
    obtain ⟨value, -, rfl⟩ := Option.map_eq_some_iff.mp h
    exact Or.inr ⟨List.not_mem_nil, rfl⟩
  | cons entry entries ih =>
    obtain ⟨other, old⟩ := entry
    rw [alter] at h
    by_cases hname : other.name = key.name
    · rw [if_pos hname] at h
      obtain ⟨value, -, rfl⟩ := Option.map_eq_some_iff.mp h
      exact Or.inl rfl
    · rw [if_neg hname] at h
      obtain ⟨changed, hchanged, rfl⟩ := Option.map_eq_some_iff.mp h
      rcases ih hchanged with hsame | ⟨hnew, hadded⟩
      · left
        exact congrArg (other.name :: ·) hsame
      · right
        refine ⟨?_, congrArg (other.name :: ·) hadded⟩
        exact List.not_mem_cons_of_ne_of_not_mem (Ne.symm hname) hnew

/-- To change what stands under a key does not change the keys. -/
theorem Distinct.alter {f : Option ν → Option ν} {entries : List (Key × ν)} (h : table.Distinct)
    (halter : alter key f table.entries = some entries) :
    Distinct { table with entries := entries } := by
  rcases names_alter halter with hsame | ⟨hnew, hadded⟩
  · show (names entries).Nodup
    rw [hsame]
    exact h
  · show (names entries).Nodup
    rw [hadded]
    exact h.names_concat hnew

/-- A new key can be added at the end. -/
theorem Distinct.append (h : table.Distinct) (hnew : key.name ∉ names table.entries) (value : ν) :
    (table.append key value).Distinct := by
  show (names (table.entries ++ [(key, value)])).Nodup
  rw [names, List.map_append]
  exact h.names_concat hnew

/-- Keys that are left after one is erased were distinct before. -/
theorem Distinct.erase (h : table.Distinct) (name : Text) : (table.erase name).Distinct :=
  h.sublist (List.filter_sublist.map _)

/-- A name that is erased is free again. -/
theorem not_mem_names_erase (table : Table ν) (name : Text) :
    name ∉ names (table.erase name).entries := by
  intro hmem
  obtain ⟨entry, hentry, hname⟩ := List.mem_map.mp hmem
  simpa [hname] using (List.mem_filter.mp hentry).2

end

/-! ## One line -/

section

variable {table changed : Table Node}

/-- What is done to the table at the end of a path keeps the keys of the outermost table distinct,
if it keeps those of a table that it is done to. -/
theorem Distinct.descend {route : Route} {f : Table Node → Option (Table Node)} {path : List Key}
    (hf : ∀ {t t'}, f t = some t' → t.Distinct → t'.Distinct)
    (h : table.Distinct) (hdescend : table.descend route f path = some changed) :
    changed.Distinct := by
  cases path with
  | nil => exact hf hdescend h
  | cons key path =>
    rw [Table.descend] at hdescend
    obtain ⟨entries, halter, rfl⟩ := Option.map_eq_some_iff.mp hdescend
    exact h.alter halter

/-- An assignment keeps the keys distinct: it adds a key only where there was none of its name. -/
theorem Distinct.assign {a : Assignment} (h : table.Distinct)
    (hassign : table.assign a = some changed) : changed.Distinct := by
  refine h.descend ?_ hassign
  intro target target' htarget hdistinct
  split at htarget
  · cases htarget
  · split at htarget
    · cases htarget
    · rename_i hnew
      obtain rfl := Option.some.inj htarget
      rw [Option.not_isSome_iff_eq_none] at hnew
      exact hdistinct.append (not_mem_names_of_get?_eq_none hnew) _

/-- So does a header that opens a table. -/
theorem Distinct.openTable {path : List Key} {key : Key} {header : Span} {below : List Assignment}
    (h : table.Distinct) (hopen : table.openTable path key header below = some changed) :
    changed.Distinct := by
  refine h.descend ?_ hopen
  intro parent parent' hparent hdistinct
  -- a new table; one that longer headers made, which moves to the end; no other can be opened
  split at hparent
  · rename_i hnew
    obtain ⟨t, -, rfl⟩ := Option.map_eq_some_iff.mp hparent
    exact hdistinct.append (not_mem_names_of_get?_eq_none hnew) _
  · obtain ⟨t, -, rfl⟩ := Option.map_eq_some_iff.mp hparent
    exact (hdistinct.erase key.name).append (not_mem_names_erase parent key.name) _
  · cases hparent

/-- So does a header that adds a table to an array of tables. -/
theorem Distinct.addElement {path : List Key} {key : Key} {header : Span} {below : List Assignment}
    (h : table.Distinct) (hadd : table.addElement path key header below = some changed) :
    changed.Distinct := by
  refine h.descend ?_ hadd
  intro parent parent' hparent hdistinct
  obtain ⟨t, -, hparent⟩ := Option.bind_eq_some_iff.mp hparent
  obtain ⟨entries, halter, hparent⟩ := Option.bind_eq_some_iff.mp hparent
  obtain rfl := Option.some.inj hparent
  exact hdistinct.alter halter

end

end Table

open Table

/-- So does a whole section, by its header and then its assignments. -/
theorem distinct_addSection {root changed : Table Node} {s : Section} (h : root.Distinct)
    (hadd : addSection root s = some changed) : changed.Distinct := by
  rw [addSection] at hadd
  split at hadd
  · exact h.addElement hadd
  · exact h.openTable hadd

/-! ## All lines -/

/-- What each step keeps, all of them keep. -/
theorem foldlM_induction {α β : Type} {P : β → Prop} {f : β → α → Option β} {as : List α}
    {b b' : β} (hb : P b) (hf : ∀ {b a b'}, P b → f b a = some b' → P b')
    (h : as.foldlM f b = some b') : P b' := by
  induction as generalizing b with
  | nil =>
    obtain rfl := Option.some.inj h
    exact hb
  | cons a as ih =>
    rw [List.foldlM_cons] at h
    obtain ⟨c, hc, hrest⟩ := Option.bind_eq_some_iff.mp h
    exact ih (hf hb hc) hrest

/-- A document is put together section by section, from the empty table on. -/
theorem distinct_of_assemble {lines : List Line} {table : Table Node}
    (h : assemble lines = some table) : table.Distinct := by
  rw [assemble] at h
  obtain ⟨root, htop, hrest⟩ := Option.bind_eq_some_iff.mp h
  have hempty : (⟨.root, []⟩ : Table Node).Distinct := List.nodup_nil
  have hroot : root.Distinct := foldlM_induction hempty Distinct.assign htop
  exact foldlM_induction hroot distinct_addSection hrest

/-- No key of a document stands in it twice. -/
theorem distinct_of_parse? {text : Text} {table : Table Node} (h : parse? text = some table) :
    table.Distinct := by
  simp only [parse?, Option.ite_none_right_eq_some] at h
  exact distinct_of_assemble h.2

end FencedCode.Toml
