import FencedCode.Block
import FencedCode.Proofs.Document.Newlines
import FencedCode.Proofs.Text.Trimming

/-!
# Attribute words

Everything about the words of an attribute text follows from two equations: a comma divides the
words as it divides the text (`words_append`), and an entry without commas gives the word that is
left when it is trimmed, or none (`words_of_not_mem`). So each word is a text that can stand between
commas as it is (`isWord_of_mem_words`), such words are read back however they are spaced out
(`words_intercalate`), and where a word of a text stands in it can be told without reading the rest
(`mem_words_iff`).
-/
namespace FencedCode.Block

open Text

/-- A text that stands for itself between commas. -/
structure IsWord (word : Text) : Prop where
  ne_nil : word ≠ []
  comma : ',' ∉ word
  trimmed : IsTrimmed word

/-- What may be written between two commas: white space alone, or a word with white space around
it. -/
inductive Entry where
  | blank (space : Text) (hspace : IsBlank space)
  | padded (before word after : Text) (hbefore : IsBlank before) (hword : IsWord word)
      (hafter : IsBlank after)

namespace Entry

/-- The entry as it is written. -/
def text : Entry → Text
  | blank space _ => space
  | padded before word after .. => before ++ word ++ after

/-- The word of an entry that has one. -/
def word? : Entry → Option Text
  | blank .. => none
  | padded _ word _ .. => some word

end Entry

/-- What an attribute text has after its last comma, all of it if there is none. -/
def lastEntry (attributes : Text) : Text :=
  attributes.rtakeWhile (· != ',')

/-- What an attribute text has before its first comma, all of it if there is none. -/
def firstEntry (attributes : Text) : Text :=
  attributes.takeWhile (· != ',')

/-! ## Two equations -/

section

variable {space entry word : Text}

/-- **A comma divides the words.** -/
theorem words_append (attributes rest : Text) :
    words (attributes ++ ',' :: rest) = words attributes ++ words rest := by
  unfold words
  rw [List.splitOn_append_cons_self, List.map_append, List.filter_append]

/-- Without commas there is one entry. -/
theorem words_of_not_mem (h : ',' ∉ entry) :
    words entry = if trim entry = [] then [] else [trim entry] := by
  rw [words, List.splitOn_eq_singleton h, List.map_singleton]
  rcases trim entry with _ | ⟨c, t⟩ <;> rfl

/-- A comma is not blank. -/
theorem comma_not_mem_of_isBlank (h : IsBlank space) : ',' ∉ space := by
  intro hc
  exact absurd (h ',' hc) (by decide)

/-- Blanks hold no word. -/
theorem words_of_isBlank (h : IsBlank space) : words space = [] := by
  rw [words_of_not_mem (comma_not_mem_of_isBlank h), if_pos (trim_eq_nil_iff.mpr h)]

/-- White space around a word does not show. -/
theorem words_of_isWord {before after : Text} (hbefore : IsBlank before) (h : IsWord word)
    (hafter : IsBlank after) : words (before ++ word ++ after) = [word] := by
  have hcomma : ',' ∉ before ++ word ++ after := by
    rw [List.append_assoc, List.mem_append, List.mem_append]
    rintro (hc | hc | hc)
    · exact comma_not_mem_of_isBlank hbefore hc
    · exact h.comma hc
    · exact comma_not_mem_of_isBlank hafter hc
  rw [words_of_not_mem hcomma, trim_append hbefore hafter h.trimmed, if_neg h.ne_nil]

/-- An entry holds its word, if it has one. -/
theorem words_text (entry : Entry) : words entry.text = entry.word?.toList := by
  cases entry with
  | blank space hspace => exact words_of_isBlank hspace
  | padded before word after hbefore hword hafter => exact words_of_isWord hbefore hword hafter

end

/-! ## Entries one by one -/

/-- An attribute text has no comma, or it is an entry, a comma and further entries. -/
@[elab_as_elim]
theorem entryInduction {motive : Text → Prop} (last : ∀ entry, ',' ∉ entry → motive entry)
    (cons : ∀ entry rest, ',' ∉ entry → motive rest → motive (entry ++ ',' :: rest))
    (attributes : Text) : motive attributes := by
  have hall : ∀ entries : List Text, entries ≠ [] → (∀ entry ∈ entries, ',' ∉ entry) →
      motive ([','].intercalate entries) := by
    intro entries hne hcomma
    -- the last entry is told from the others, for no comma comes after it
    induction entries with
    | nil => exact absurd rfl hne
    | cons entry entries ih =>
      obtain ⟨hentry, hentries⟩ := List.forall_mem_cons.mp hcomma
      cases entries with
      | nil =>
        rw [List.intercalate_singleton]
        exact last entry hentry
      | cons next entries =>
        rw [List.intercalate_cons_cons, List.append_assoc, List.singleton_append]
        exact cons entry _ hentry (ih (List.cons_ne_nil _ _) hentries)
  have hcomma : ∀ entry ∈ attributes.splitOn ',', ',' ∉ entry := by
    intro entry hentry hc
    exact (mem_of_mem_splitOn hentry hc).2 rfl
  have := hall (attributes.splitOn ',') (List.splitOn_ne_nil _ _) hcomma
  rwa [List.intercalate_splitOn] at this

/-- What is left of an entry without commas is a word, unless nothing is. -/
theorem isWord_trim {entry : Text} (hcomma : ',' ∉ entry) (h : trim entry ≠ []) :
    IsWord (trim entry) := by
  refine ⟨h, ?_, isTrimmed_trim entry⟩
  intro hc
  obtain ⟨before, after, -, -, hentry⟩ := exists_eq_append_trim entry
  apply hcomma
  rw [hentry, List.mem_append, List.mem_append]
  exact Or.inl (Or.inr hc)

/-- Without a comma there is one word at most, what is left when the blanks around it are trimmed.
-/
theorem mem_words_of_not_mem {entry word : Text} (hcomma : ',' ∉ entry) :
    word ∈ words entry ↔ trim entry ≠ [] ∧ word = trim entry := by
  rw [words_of_not_mem hcomma]
  split_ifs with h <;> simp [h]

/-- Whatever the attributes are, their words are words: not empty, without commas, and trimmed. -/
theorem isWord_of_mem_words {attributes word : Text} (h : word ∈ words attributes) :
    IsWord word := by
  -- the words of an attribute text are those of its entries one after the other
  induction attributes using entryInduction with
  | last entry hcomma =>
    obtain ⟨hne, rfl⟩ := (mem_words_of_not_mem hcomma).mp h
    exact isWord_trim hcomma hne
  | cons entry rest hcomma ih =>
    rw [words_append, List.mem_append] at h
    rcases h with h | h
    · obtain ⟨hne, rfl⟩ := (mem_words_of_not_mem hcomma).mp h
      exact isWord_trim hcomma hne
    · exact ih h

/-! ## Words put together -/

/-- Entries joined by commas are read one by one. -/
theorem words_intercalate (entries : List Entry) :
    words ([','].intercalate (entries.map Entry.text)) = entries.filterMap Entry.word? := by
  induction entries with
  | nil => exact words_of_isBlank isBlank_nil
  | cons entry entries ih =>
    have hcons : (entry :: entries).filterMap Entry.word? =
        entry.word?.toList ++ entries.filterMap Entry.word? := by
      rw [List.filterMap_cons]
      cases entry.word? <;> rfl
    rw [hcons, List.map_cons]
    cases entries with
    | nil => rw [List.map_nil, List.intercalate_singleton, words_text, List.filterMap_nil,
        List.append_nil]
    | cons next entries =>
      rw [List.map_cons] at ih ⊢
      rw [List.intercalate_cons_cons, List.append_assoc, List.singleton_append, words_append, ih,
        words_text]

/-- Words are entries as they are. -/
theorem exists_entries {ws : List Text} (h : ∀ word ∈ ws, IsWord word) :
    ∃ entries : List Entry, entries.map Entry.text = ws ∧ entries.filterMap Entry.word? = ws := by
  induction ws with
  | nil => exact ⟨[], rfl, rfl⟩
  | cons word ws ih =>
    obtain ⟨hword, hws⟩ := List.forall_mem_cons.mp h
    obtain ⟨entries, htext, hwords⟩ := ih hws
    refine ⟨.padded [] word [] isBlank_nil hword isBlank_nil :: entries, ?_, ?_⟩
    · rw [List.map_cons, htext]
      exact congrArg (· :: ws) (List.append_nil word)
    · exact congrArg (word :: ·) hwords

/-- Words joined by commas are read back. -/
theorem words_intercalate_of_isWord {ws : List Text} (h : ∀ word ∈ ws, IsWord word) :
    words ([','].intercalate ws) = ws := by
  obtain ⟨entries, htext, hwords⟩ := exists_entries h
  rw [← htext, words_intercalate, hwords, htext]

/-! ## Where a word stands -/

section

variable {attributes before after entry word : Text}

theorem ne_comma_of_not_mem (h : ',' ∉ entry) : ∀ c ∈ entry, (c != ',') = true := by
  intro c hc
  exact bne_iff_ne.mpr (ne_of_mem_of_not_mem hc h)

/-- Without a comma the last entry is all there is. -/
theorem lastEntry_of_not_mem (h : ',' ∉ entry) : lastEntry entry = entry :=
  List.rtakeWhile_eq_self_iff.mpr (ne_comma_of_not_mem h)

/-- What stands before a comma is not in the last entry. -/
theorem lastEntry_append (before rest : Text) :
    lastEntry (before ++ ',' :: rest) = lastEntry rest := by
  have hstop : (',' :: before.reverse).takeWhile (· != ',') = [] := rfl
  rw [lastEntry, lastEntry, List.rtakeWhile, List.rtakeWhile, List.reverse_append,
    List.reverse_cons, List.append_assoc, List.singleton_append, List.takeWhile_append, hstop]
  split_ifs with h
  · have hall := (List.takeWhile_prefix (· != ',')).eq_of_length h
    rw [List.append_nil, hall]
  · rfl

/-- Without a comma the first entry is all there is. -/
theorem firstEntry_of_not_mem (h : ',' ∉ entry) : firstEntry entry = entry :=
  List.takeWhile_eq_self_iff.mpr (ne_comma_of_not_mem h)

/-- The first entry ends at the first comma. -/
theorem firstEntry_append (h : ',' ∉ entry) (rest : Text) :
    firstEntry (entry ++ ',' :: rest) = entry := by
  rw [firstEntry, List.takeWhile_append_of_pos (ne_comma_of_not_mem h)]
  exact List.append_nil entry

/-- Of what stands before a place only the last entry has to do with the word there. -/
theorem exists_words_append_left (before : Text) :
    ∃ front, ∀ rest, words (before ++ rest) = front ++ words (lastEntry before ++ rest) := by
  induction before using entryInduction with
  | last entry hcomma =>
    refine ⟨[], fun rest => ?_⟩
    rw [lastEntry_of_not_mem hcomma, List.nil_append]
  | cons entry before hcomma ih =>
    obtain ⟨front, hfront⟩ := ih
    refine ⟨words entry ++ front, fun rest => ?_⟩
    rw [List.append_assoc, List.cons_append, words_append, hfront, lastEntry_append,
      List.append_assoc]

/-- Of what stands behind it only the first. -/
theorem exists_words_append_right (after : Text) :
    ∃ back, ∀ front, words (front ++ after) = words (front ++ firstEntry after) ++ back := by
  induction after using entryInduction with
  | last entry hcomma =>
    refine ⟨[], fun front => ?_⟩
    rw [firstEntry_of_not_mem hcomma, List.append_nil]
  | cons entry after hcomma _ =>
    refine ⟨words after, fun front => ?_⟩
    rw [firstEntry_append hcomma, ← List.append_assoc, words_append]

/-- A word between white space that reaches to commas or to the ends is one of the words. -/
theorem mem_words_append (hword : IsWord word) (hbefore : IsBlank (lastEntry before))
    (hafter : IsBlank (firstEntry after)) : word ∈ words (before ++ word ++ after) := by
  obtain ⟨front, hfront⟩ := exists_words_append_left before
  obtain ⟨back, hback⟩ := exists_words_append_right after
  rw [List.append_assoc, hfront, ← List.append_assoc, hback, words_of_isWord hbefore hword hafter]
  simp

/-- Each of the words stands somewhere between such white space. -/
theorem exists_of_mem_words (h : word ∈ words attributes) :
    ∃ before after, attributes = before ++ word ++ after ∧ IsBlank (lastEntry before) ∧
      IsBlank (firstEntry after) := by
  induction attributes using entryInduction with
  | last entry hcomma =>
    obtain ⟨-, rfl⟩ := (mem_words_of_not_mem hcomma).mp h
    obtain ⟨before, after, hbefore, hafter, hentry⟩ := exists_eq_append_trim entry
    refine ⟨before, after, hentry, ?_, ?_⟩
    · rwa [lastEntry_of_not_mem (comma_not_mem_of_isBlank hbefore)]
    · rwa [firstEntry_of_not_mem (comma_not_mem_of_isBlank hafter)]
  | cons entry rest hcomma ih =>
    rw [words_append, List.mem_append] at h
    rcases h with h | h
    · -- it is the word of the first entry, and a comma ends the white space after it
      obtain ⟨-, rfl⟩ := (mem_words_of_not_mem hcomma).mp h
      obtain ⟨before, after, hbefore, hafter, hentry⟩ := exists_eq_append_trim entry
      refine ⟨before, after ++ ',' :: rest, ?_, ?_, ?_⟩
      · rw [← List.append_assoc, ← hentry]
      · rwa [lastEntry_of_not_mem (comma_not_mem_of_isBlank hbefore)]
      · rwa [firstEntry_append (comma_not_mem_of_isBlank hafter)]
    · obtain ⟨before, after, rfl, hbefore, hafter⟩ := ih h
      refine ⟨entry ++ ',' :: before, after, ?_, ?_, hafter⟩
      · simp
      · rwa [lastEntry_append]

/-- The place of a word is told by its two neighbours. -/
theorem mem_words_iff :
    word ∈ words attributes ↔ IsWord word ∧ ∃ before after, attributes = before ++ word ++ after ∧
      IsBlank (lastEntry before) ∧ IsBlank (firstEntry after) := by
  constructor
  · intro h
    exact ⟨isWord_of_mem_words h, exists_of_mem_words h⟩
  · rintro ⟨hword, before, after, rfl, hbefore, hafter⟩
    exact mem_words_append hword hbefore hafter

end

/-! ## Flags -/

/-- A word is a text that is its own and only word. -/
theorem isWord_iff {word : Text} : IsWord word ↔ word ≠ [] ∧ ',' ∉ word ∧ trim word = word := by
  rw [trim_eq_self_iff]
  constructor
  · intro h
    exact ⟨h.ne_nil, h.comma, h.trimmed⟩
  · rintro ⟨hne, hcomma, htrimmed⟩
    exact ⟨hne, hcomma, htrimmed⟩

instance (word : Text) : Decidable (IsWord word) :=
  decidable_of_iff' _ isWord_iff

/-- **The flags of a block.** Each is a word, and a comma in the attributes divides the flags.
Words are read back from between commas, whatever white space is around them and whatever blank
entries are among them; in particular the flags of a block joined by commas have just these flags.
A text is one of the flags exactly if it is a word and stands somewhere in the attributes with only
white space between it and the nearest comma, or the end, on either side. -/
theorem flags_split_at_commas (block : Block) :
    let flags (attributes : Text) : List Text := { block with attributes := attributes }.flags
    (∀ attributes, ∀ flag ∈ flags attributes, IsWord flag) ∧
    (∀ attributes rest, flags (attributes ++ ',' :: rest) = flags attributes ++ flags rest) ∧
    (∀ entries : List Entry,
      flags ([','].intercalate (entries.map Entry.text)) = entries.filterMap Entry.word?) ∧
    (∀ attributes, flags ([','].intercalate (flags attributes)) = flags attributes) ∧
    ∀ query, (block.hasFlag query = true ↔ query ∈ block.flags) ∧
      (block.hasFlag query = true ↔ query ≠ [] ∧ ',' ∉ query ∧ trim query = query ∧
        ∃ before after, block.attributes = before ++ query ++ after ∧
          IsBlank (lastEntry before) ∧ IsBlank (firstEntry after)) := by
  intro flags
  refine ⟨fun _ _ => isWord_of_mem_words, words_append, words_intercalate, ?_, ?_⟩
  · intro attributes
    exact words_intercalate_of_isWord fun _ => isWord_of_mem_words
  · intro query
    refine ⟨hasFlag_iff, ?_⟩
    rw [hasFlag_iff, Block.flags, mem_words_iff, isWord_iff, and_assoc, and_assoc]

/-- White space of several kinds around the words, an entry without one, a word with a blank inside
and a word that is repeated. -/
theorem flags_split_at_commas_spaced :
    let block : Block := ⟨1, " no_run,, a b\t,\u00a0no_run".toList, []⟩
    "a b".toList ∈ block.flags ∧ IsWord "a b".toList ∧ block.hasFlag "a b".toList = true ∧
      block.flags = ["no_run".toList, "a b".toList, "no_run".toList] := by
  intro block
  obtain ⟨hword, -, hentries, -, hflag⟩ := flags_split_at_commas block
  have hspaced := hentries
    [.padded [' '] "no_run".toList [] (by decide) (by decide) (by decide),
      .blank [] (by decide),
      .padded [' '] "a b".toList ['\t'] (by decide) (by decide) (by decide),
      .padded ['\u00a0'] "no_run".toList [] (by decide) (by decide) (by decide)]
  have hflags : block.flags = ["no_run".toList, "a b".toList, "no_run".toList] := hspaced
  have hmem : "a b".toList ∈ block.flags := by
    rw [hflags]
    decide
  exact ⟨hmem, hword block.attributes _ hmem, (hflag _).1.mpr hmem, hflags⟩

end FencedCode.Block
