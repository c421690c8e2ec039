import FencedCode.Proofs.Output.Encoding
import FencedCode.Proofs.Output.JsonReading
import FencedCode.Proofs.Output.Limits
import FencedCode.Proofs.Text.Reading
import FencedCode.Proofs.Text.Terminated
import FencedCode.Proofs.Text.Written
import FencedCode.Proofs.Toml.Strings

/-!
# JSON lines

What is written in the JSON format can be read back. The reader of `Json` takes back each part of an
object as it was written, up to what follows it: a character of a string (`Json.run_escape`), a
string (`Json.run_quoted`), a count (`Json.run_number`), and so the object of a block
(`Json.read?_object`). An object holds no controls (`Block.space_le_of_mem_object`), so each line of
the output is the object of one block, and the output as a whole gives back the list of blocks
(`writeBlocks_json_lines`).
-/
namespace FencedCode

/-! ## Strings -/

namespace Json

open Reader

variable {c : Char} {r : Text}

/-- A unit below 32 is read from its two hexadecimal digits. -/
theorem run_codeUnit {n : Nat} (h : n < 32) (r : Text) :
    codeUnit.run ('u' :: '0' :: '0' :: JsonText.hexDigit (n / 16) :: JsonText.hexDigit n :: r) =
      some (n, r) := by
  have hdigits : ∀ n < 32, Toml.isHexDigit (JsonText.hexDigit (n / 16)) = true ∧
      Toml.isHexDigit (JsonText.hexDigit n) = true ∧
      Toml.number 16 ['0', '0', JsonText.hexDigit (n / 16), JsonText.hexDigit n] = n := by
    decide +kernel
  obtain ⟨hhigh, hlow, hnumber⟩ := hdigits n h
  have hhex : ∀ e ∈ ['0', '0', JsonText.hexDigit (n / 16), JsonText.hexDigit n],
      Toml.isHexDigit e = true := by
    simp only [List.forall_mem_cons]
    exact ⟨by decide, by decide, hhigh, hlow, List.forall_mem_nil _⟩
  refine run_right (run_exactly 'u' _) ?_
  refine (run_map _ (Toml.run_fourDigits hhex r)).trans ?_
  rw [hnumber]

/-- An escape with a letter is read as what the letter stands for. -/
theorem run_escape_short {letter : Char} (h : shortEscape? letter = some c) (r : Text) :
    escape.run ('\\' :: letter :: r) = some (c, r) :=
  run_right (run_exactly '\\' _)
    (run_orElse_left (run_filterMap (run_char_cons rfl r) h))

/-- A control written with its number is read as the control. -/
theorem run_escape_control (h : c.toNat < 32) (r : Text) :
    escape.run ('\\' :: 'u' :: '0' :: '0' :: JsonText.hexDigit (c.toNat / 16) ::
      JsonText.hexDigit c.toNat :: r) = some (c, r) := by
  refine run_right (run_exactly '\\' _) ?_
  rw [run_orElse_right (run_filterMap_of_none (run_char_cons rfl _) rfl)]
  exact run_orElse_left (run_filterMap (run_codeUnit h r) (Toml.codePoint?_toNat c))

/-- What is written for a character is read as that character. -/
theorem run_escape (c : Char) (r : Text) :
    (Reader.char isUnescaped <|> escape).run (JsonText.escape c ++ r) = some (c, r) := by
  -- a backslash never stands for itself
  have hbackslash {s : Text} {x : Char × Text} (h : escape.run ('\\' :: s) = some x) :
      (Reader.char isUnescaped <|> escape).run ('\\' :: s) = some x := by
    rw [run_orElse_right (run_char_cons_of_not (by decide) s), h]
  unfold JsonText.escape
  split_ifs with hquote hslash hplain hb ht hn hf hr
  · subst hquote
    exact hbackslash (run_escape_short rfl r)
  · subst hslash
    exact hbackslash (run_escape_short rfl r)
  · refine run_orElse_left (run_char_cons ?_ r)
    simp [isUnescaped, hquote, hslash, hplain]
  · subst hb
    exact hbackslash (run_escape_short rfl r)
  · subst ht
    exact hbackslash (run_escape_short rfl r)
  · subst hn
    exact hbackslash (run_escape_short rfl r)
  · subst hf
    exact hbackslash (run_escape_short rfl r)
  · subst hr
    exact hbackslash (run_escape_short rfl r)
  · refine hbackslash (run_escape_control ?_ r)
    exact Nat.lt_of_not_le hplain

/-- A text between its quotes is read as that text, whatever follows. -/
theorem run_quoted (t r : Text) : quoted.run (JsonText.quote t ++ r) = some (t, r) := by
  have hclose : (Reader.char isUnescaped <|> escape).run ('"' :: r) = none := by
    rw [run_orElse_right (run_char_cons_of_not (by decide) r)]
    exact run_right_of_none (run_exactly_of_ne (by decide) r)
  have hmany := many_flatMap (fun c (_ : c ∈ t) r => run_escape c r) hclose
  have hquote : JsonText.quote t ++ r = '"' :: (t.flatMap JsonText.escape ++ '"' :: r) := by
    simp [JsonText.quote]
  rw [hquote]
  exact run_map _ (run_left (run_andMany (run_exactly '"' _) hmany) (run_exactly '"' r))

/-! ## Numbers and tokens -/

/-- The digits of a count are read up to a character that is no digit. -/
theorem run_digits (hc : c.isDigit = false) (n : Nat) (r : Text) :
    digits.run (Text.ofNat n ++ c :: r) = some (Text.ofNat n, c :: r) := by
  obtain ⟨d, ds, hds, hzero⟩ := Text.exists_ofNat_eq_cons n
  have hdigit : ∀ e ∈ d :: ds, e.isDigit = true := by
    intro e he
    rw [← hds] at he
    exact Text.isDigit_of_mem_ofNat he
  by_cases hd : d = '0'
  · -- only zero starts with a zero, so there are no more digits
    have hfirst : ((Reader.char fun c => c.isDigit && c != '0').andMany (.char Char.isDigit)).run
        ('0' :: c :: r) = none := run_andMany_of_none (run_char_cons_of_not rfl _)
    have hofNat : Text.ofNat n = ['0'] := by
      rw [hzero hd]
      rfl
    rw [hofNat, List.singleton_append, digits, run_orElse_right (run_map_of_none _ hfirst)]
    exact run_map _ (run_exactly '0' _)
  · have hfirst : (d.isDigit && d != '0') = true := by
      rw [hdigit d List.mem_cons_self, bne_iff_ne.mpr hd]
      rfl
    have hmany : (Reader.char Char.isDigit).many (ds ++ c :: r) = (ds, c :: r) :=
      many_char (fun e he => hdigit e (List.mem_cons_of_mem d he)) (run_char_cons_of_not hc r)
    rw [hds]
    exact run_orElse_left (run_map _ (run_andMany (run_char_cons hfirst _) hmany))

/-- A count is read as that number, up to a character that is no digit. -/
theorem run_number (hc : c.isDigit = false) (n : Nat) (r : Text) :
    number.run (Text.ofNat n ++ c :: r) = some (Int.ofNat n, c :: r) := by
  -- a count has no sign
  have hsign : ((Reader.exactly '-').right digits).run (Text.ofNat n ++ c :: r) = none := by
    obtain ⟨d, ds, hds, -⟩ := Text.exists_ofNat_eq_cons n
    have hd : d ≠ '-' := by
      rintro rfl
      have hmem : '-' ∈ Text.ofNat n := hds ▸ List.mem_cons_self
      exact Text.not_mem_ofNat rfl n hmem
    rw [hds]
    exact run_right_of_none (run_exactly_of_ne hd _)
  rw [number, run_orElse_right (run_map_of_none _ hsign)]
  refine (run_map _ (run_digits hc n r)).trans ?_
  rw [Text.ofDigitChars_ofNat]

/-- A token is read with the space after it. -/
theorem run_token (hc : isSpace c = false) {s : Text} (hs : spaces.run s = some r) :
    (token c).run (c :: s) = some (c, r) :=
  run_after (Filler.run_dropWhile_cons_of_not hc s) (run_before (run_exactly c s) hs)

/-- Another character is not taken for it. -/
theorem run_token_of_ne {d : Char} (hd : isSpace d = false) (hne : d ≠ c) (s : Text) :
    (token c).run (d :: s) = none := by
  refine run_after_of_none (Filler.run_dropWhile_cons_of_not hd s) ?_
  exact run_before_of_none (run_exactly_of_ne hne s)

/-- There is no white space before a string. -/
theorem run_spaces_quote (t r : Text) :
    spaces.run (JsonText.quote t ++ r) = some (JsonText.quote t ++ r) :=
  Filler.run_dropWhile_cons_of_not (by decide) _

/-- There is no white space before a count. -/
theorem run_spaces_ofNat (n : Nat) (r : Text) :
    spaces.run (Text.ofNat n ++ r) = some (Text.ofNat n ++ r) := by
  obtain ⟨d, ds, hds, -⟩ := Text.exists_ofNat_eq_cons n
  have hd : d.isDigit = true := Text.isDigit_of_mem_ofNat (hds ▸ List.mem_cons_self)
  have hspace : isSpace d = false := by
    by_contra hspace
    rw [Bool.not_eq_false, isSpace] at hspace
    simp only [Bool.or_eq_true, beq_iff_eq] at hspace
    rcases hspace with ((rfl | rfl) | rfl) | rfl
    all_goals cases hd
  rw [hds]
  exact Filler.run_dropWhile_cons_of_not hspace _

/-! ## Objects -/

/-- A value that needs no brackets is read at any depth. -/
theorem run_nested {s : Text} {value : Json} (h : scalar.run s = some (value, r)) (n : Nat) :
    (nested n).run s = some (value, r) := by
  cases n with
  | zero => exact h
  | succ n => exact run_orElse_left h

/-- A quoted text is read back, whatever follows it. -/
theorem run_nested_quote (n : Nat) (t r : Text) :
    (nested n).run (JsonText.quote t ++ r) = some (.string t, r) :=
  run_nested (run_orElse_left (run_map _ (run_quoted t r))) n

/-- A count is read back, as long as no digit follows it. -/
theorem run_nested_ofNat (hc : c.isDigit = false) (n count : Nat) (r : Text) :
    (nested n).run (Text.ofNat count ++ c :: r) = some (.integer count, c :: r) := by
  refine run_nested ?_ n
  have hquoted : quoted.run (Text.ofNat count ++ c :: r) = none := by
    obtain ⟨d, ds, hds, -⟩ := Text.exists_ofNat_eq_cons count
    have hd : d ≠ '"' := by
      rintro rfl
      have hmem : '"' ∈ Text.ofNat count := hds ▸ List.mem_cons_self
      exact Text.not_mem_ofNat rfl count hmem
    rw [hds]
    exact run_map_of_none _ (run_left_of_none (run_andMany_of_none (run_exactly_of_ne hd _)))
  rw [scalar, run_orElse_right (run_map_of_none _ hquoted)]
  exact run_map _ (run_number hc count r)

/-- Brackets start neither a string nor a number. -/
theorem run_scalar_bracket (s : Text) : scalar.run ('\x7b' :: s) = none := by
  have hquoted : quoted.run ('\x7b' :: s) = none :=
    run_map_of_none _ (run_left_of_none (run_andMany_of_none (run_exactly_of_ne (by decide) s)))
  have hdigits : digits.run ('\x7b' :: s) = none := by
    rw [digits, run_orElse_right (run_map_of_none _ (run_andMany_of_none
      (run_char_cons_of_not rfl s)))]
    exact run_map_of_none _ (run_exactly_of_ne (by decide) s)
  rw [scalar, run_orElse_right (run_map_of_none _ hquoted)]
  refine run_map_of_none _ ?_
  rw [number, run_orElse_right (run_map_of_none _ (run_right_of_none
    (run_exactly_of_ne (by decide) s)))]
  exact run_map_of_none _ hdigits

/-- A member is its quoted name, a colon and its value. -/
theorem run_member {value : Reader Json} {name s : Text} {v : Json}
    (hs : spaces.run s = some s) (hv : value.run s = some (v, r)) :
    (member value).run (JsonText.quote name ++ ':' :: s) = some ((name, v), r) :=
  run_seq (run_left (run_quoted name _) (run_token rfl hs)) hv

end Json

/-! ## Blocks -/

/-- An object is written with its three members in this order and without white space. -/
theorem Block.object_eq (block : Block) :
    block.object =
      '\x7b' :: (JsonText.quote Json.startLineName ++ ':' :: (Text.ofNat block.startLine ++
        ',' :: (JsonText.quote Json.attributesName ++ ':' :: (JsonText.quote block.attributes ++
          ',' :: (JsonText.quote Json.contentName ++ ':' :: (JsonText.quote block.content ++
            ['\x7d'])))))) := by
  -- for any texts in place of the literals, which a rewrite would evaluate
  have hjoin (start attributes content close : Text)
      (hstart : start = '\x7b' :: (JsonText.quote Json.startLineName ++ [':']))
      (hattributes : attributes = ',' :: (JsonText.quote Json.attributesName ++ [':']))
      (hcontent : content = ',' :: (JsonText.quote Json.contentName ++ [':']))
      (hclose : close = ['\x7d']) :
      start ++ Text.ofNat block.startLine ++ attributes ++ JsonText.quote block.attributes ++
          content ++ JsonText.quote block.content ++ close =
        '\x7b' :: (JsonText.quote Json.startLineName ++ ':' :: (Text.ofNat block.startLine ++
          ',' :: (JsonText.quote Json.attributesName ++ ':' :: (JsonText.quote block.attributes ++
            ',' :: (JsonText.quote Json.contentName ++ ':' :: (JsonText.quote block.content ++
              ['\x7d'])))))) := by
    rw [hstart, hattributes, hcontent, hclose]
    simp only [List.append_assoc, List.cons_append, List.nil_append]
  exact hjoin _ _ _ _ (by decide +kernel) (by decide +kernel) (by decide +kernel)
    (by decide +kernel)

namespace Json

open Reader

/-- A further member with a text is read up to what follows it. -/
theorem run_further (n : Nat) (name t u : Text) :
    ((token ',').right (member (nested n))).run
        (',' :: (JsonText.quote name ++ ':' :: (JsonText.quote t ++ u))) =
      some ((name, .string t), u) :=
  run_right (run_token rfl (run_spaces_quote name _))
    (run_member (run_spaces_quote t u) (run_nested_quote n t u))

/-- The object of a block is read as its three members, whatever values may stand inside it. -/
theorem run_members (n : Nat) (block : Block) {s r : Text} (hs : spaces.run s = some r) :
    (members (nested n)).run (block.object ++ s) =
      some ([(startLineName, .integer block.startLine), (attributesName, .string block.attributes),
        (contentName, .string block.content)], r) := by
  -- no comma follows the last member
  have hend : ((token ',').right (member (nested n))).run ('\x7d' :: s) = none :=
    run_right_of_none (run_token_of_ne rfl (by decide) s)
  have hfurther : ((token ',').right (member (nested n))).many
      (',' :: (JsonText.quote attributesName ++ ':' :: (JsonText.quote block.attributes ++
        ',' :: (JsonText.quote contentName ++ ':' :: (JsonText.quote block.content ++
          '\x7d' :: s))))) =
      ([(attributesName, .string block.attributes), (contentName, .string block.content)],
        '\x7d' :: s) := by
    rw [many_some (run_further n ..), many_some (run_further n ..), many_none hend]
  have hfirst (u : Text) : (member (nested n)).run
      (JsonText.quote startLineName ++ ':' :: (Text.ofNat block.startLine ++ ',' :: u)) =
        some ((startLineName, .integer block.startLine), ',' :: u) :=
    run_member (run_spaces_ofNat _ _) (run_nested_ofNat rfl n _ _)
  rw [Block.object_eq]
  simp only [List.append_assoc, List.cons_append, List.nil_append]
  exact run_right (run_token rfl (run_spaces_quote _ _))
    (run_orElse_left (run_left (run_sepBy (hfirst _) hfurther) (run_token rfl hs)))

/-- The line of a block is read as the object of its members. -/
theorem read?_object (block : Block) :
    read? (block.object ++ ['\n']) =
      some (.object [(startLineName, .integer block.startLine),
        (attributesName, .string block.attributes), (contentName, .string block.content)]) := by
  obtain ⟨s, hs⟩ : ∃ s, block.object ++ ['\n'] = '\x7b' :: s := by
    rw [Block.object_eq]
    exact ⟨_, rfl⟩
  have hspaces : spaces.run ['\n'] = some [] := by decide
  have hmembers := run_members s.length block hspaces
  rw [hs] at hmembers ⊢
  have hvalue : ((nested (s.length + 1)).after spaces).run ('\x7b' :: s) =
      some (.object [(startLineName, .integer block.startLine),
        (attributesName, .string block.attributes), (contentName, .string block.content)], []) := by
    refine run_after (Filler.run_dropWhile_cons_of_not rfl s) ?_
    rw [nested, run_orElse_right (run_scalar_bracket s)]
    exact run_map _ hmembers
  -- the length of the text is depth enough for one object
  rw [read?, List.length_cons, hvalue]
  rfl

/-- What is read of the line of a block describes that block. -/
theorem block?_object (block : Block) :
    block? (.object [(startLineName, .integer block.startLine),
      (attributesName, .string block.attributes), (contentName, .string block.content)]) =
        some block := by
  have hattributes : (attributesName == startLineName) = false := by decide +kernel
  have hcontent : (contentName == startLineName) = false := by decide +kernel
  have hcontent' : (contentName == attributesName) = false := by decide +kernel
  simp only [block?, List.lookup_cons, beq_self_eq_true, hattributes, hcontent, hcontent']

end Json

/-! ## Lines -/

namespace JsonText

/-- A hexadecimal digit is no control character. -/
theorem space_le_hexDigit (n : Nat) : ' ' ≤ hexDigit n := by
  have hdigits : ∀ m < 16, 32 ≤ (Nat.digitChar m).toNat := by decide
  exact hdigits (n % 16) (Nat.mod_lt n (by decide))

/-- What is written for a character holds no controls. -/
theorem space_le_of_mem_escape {c d : Char} (h : d ∈ escape c) : ' ' ≤ d := by
  have hletters (letter : Char) (hletter : ' ' ≤ letter) (hd : d ∈ ['\\', letter]) : ' ' ≤ d := by
    have hcases : d = '\\' ∨ d = letter := by simpa using hd
    rcases hcases with rfl | rfl
    · decide
    · exact hletter
  -- in the order in which escapes are tried; the last is the numbered one
  unfold escape at h
  split_ifs at h with hquote hslash hplain hb ht hn hf hr
  · exact hletters _ (by decide) h
  · exact hletters _ (by decide) h
  · rwa [List.mem_singleton.mp h]
  · exact hletters _ (by decide) h
  · exact hletters _ (by decide) h
  · exact hletters _ (by decide) h
  · exact hletters _ (by decide) h
  · exact hletters _ (by decide) h
  · simp only [List.mem_cons, List.not_mem_nil, or_false] at h
    rcases h with rfl | rfl | rfl | rfl | rfl | rfl
    any_goals decide
    all_goals exact space_le_hexDigit _

/-- Nor does a quoted text hold one: all of them are escaped. -/
theorem space_le_of_mem_quote {t : Text} {d : Char} (h : d ∈ quote t) : ' ' ≤ d := by
  have hcases : d = '"' ∨ (∃ c ∈ t, d ∈ escape c) := by
    simpa [quote, or_comm, or_assoc] using h
  rcases hcases with rfl | ⟨c, -, hc⟩
  · decide
  · exact space_le_of_mem_escape hc

end JsonText

namespace Block

/-- An object holds no controls, whatever stands in the block. -/
theorem space_le_of_mem_object {block : Block} {c : Char} (h : c ∈ block.object) : ' ' ≤ c := by
  rw [object_eq] at h
  simp only [List.mem_cons, List.mem_append, List.not_mem_nil, or_false] at h
  rcases h with rfl | h | rfl | h | rfl | h | rfl | h | rfl | h | rfl | h | rfl
  any_goals decide
  any_goals exact JsonText.space_le_of_mem_quote h
  have hdigit := Text.isDigit_of_mem_ofNat h
  have hbounds : 48 ≤ c.val ∧ c.val ≤ 57 := by simpa [Char.isDigit] using hdigit
  have hspace : 32 ≤ c.val := UInt32.le_trans (by decide) hbounds.1
  exact hspace

/-- No newline is in the object of a line. -/
theorem newline_not_mem_object (block : Block) : 10 ∉ block.object.utf8 := by
  intro h
  have hmem : '\n' ∈ block.object := (Text.octet_mem_utf8_iff (by decide) _).mp h
  have hspace := space_le_of_mem_object hmem
  revert hspace
  decide

end Block

/-- The block that one line of JSON describes. -/
def Json.decodeLine (line : Bytes) : Option Block :=
  line.text? >>= Json.read? >>= Json.block?

/-- The line of a block describes that block. -/
theorem Json.decodeLine_encode (block : Block) :
    Json.decodeLine (block.encode .json) = some block := by
  have hline : block.encode .json = (block.object ++ ['\n']).utf8 := by
    rw [Block.encode_json, Text.utf8_append, Text.utf8_newline]
  rw [Json.decodeLine, hline, Bytes.text?_utf8]
  show (Json.read? (block.object ++ ['\n'])).bind Json.block? = _
  rw [Json.read?_object]
  exact Json.block?_object block

/-- The output is the objects of the blocks with a newline after each. -/
theorem encodeAll_json (blocks : List Block) :
    encodeAll .json blocks = (blocks.map fun block => block.object.utf8).flatMap (· ++ [10]) := by
  rw [encodeAll, List.flatMap_map]
  exact List.flatMap_congr fun block _ => block.encode_json

/-- So no object holds a newline. -/
theorem newline_not_mem_of_mem_objects {blocks : List Block} :
    ∀ part ∈ blocks.map fun block => block.object.utf8, (10 : UInt8) ∉ part := by
  intro part hpart
  obtain ⟨block, -, rfl⟩ := List.mem_map.mp hpart
  exact block.newline_not_mem_object

/-- The output is cut after its newlines into the lines of the blocks. -/
theorem cutAfter_encodeAll_json (blocks : List Block) :
    cutAfter 10 (encodeAll .json blocks) = blocks.map fun block => block.encode .json := by
  rw [encodeAll_json, cutAfter_flatMap newline_not_mem_of_mem_objects, List.map_map]
  exact List.map_congr_left fun block _ => block.encode_json.symm

/-- There is one newline to a block. -/
theorem count_newline_encodeAll_json (blocks : List Block) :
    (encodeAll .json blocks).count 10 = blocks.length := by
  rw [encodeAll_json, count_flatMap_terminated newline_not_mem_of_mem_objects, List.length_map]

/-- All lines together describe the list of blocks. -/
theorem mapM_decodeLine_encode (blocks : List Block) :
    (blocks.map fun block => block.encode .json).mapM Json.decodeLine = some blocks :=
  mapM_map_eq_some fun block _ => Json.decodeLine_encode block

/-- **JSON output is framed by lines and loses nothing.** All blocks are written, each on a line of
its own that ends in the only newline it has; cut after the newlines and read line by line, the
output gives back the list of blocks. So no two lists of blocks have the same output. -/
theorem writeBlocks_json_lines (blocks : List Block) :
    let report := writeBlocks .json blocks LimitedSink.unlimited
    let out := report.sink.out.toList
    report.result = .ok blocks.length ∧
      out.count 10 = blocks.length ∧
      (cutAfter 10 out = blocks.map fun block => block.object.utf8 ++ [10]) ∧
      (cutAfter 10 out).mapM Json.decodeLine = some blocks ∧
      ∀ others : List Block,
        (writeBlocks .json others LimitedSink.unlimited).sink.out = report.sink.out →
          others = blocks := by
  intro report out
  obtain ⟨hresult, hout⟩ : report.result = _ ∧ out = _ := writeBlocks_unlimited .json blocks
  have hlines (blocks : List Block) :
      (cutAfter 10 (encodeAll .json blocks)).mapM Json.decodeLine = some blocks := by
    rw [cutAfter_encodeAll_json, mapM_decodeLine_encode]
  refine ⟨hresult, ?_, ?_, ?_, fun others h => ?_⟩
  · rw [hout, count_newline_encodeAll_json]
  · rw [hout, cutAfter_encodeAll_json]
    exact List.map_congr_left fun block _ => block.encode_json
  · rw [hout, hlines]
  · -- what is read from the common output is both lists
    have hothers := (writeBlocks_unlimited .json others).2
    rw [h] at hothers
    have hsame : some others = some blocks := by
      rw [← hlines others, ← hothers, ← hlines blocks, ← hout]
    exact Option.some.inj hsame

end FencedCode
