import FencedCode.Proofs.Text.Reading
import FencedCode.Toml.Value

/-!
# Strings written down

A text is written between double quotes with an escape for each quote, backslash and control and
every other character as it stands. The reader of TOML takes back each character so written
(`run_escape`), the string (`run_basicString`), and the string as a value at any depth
(`run_value_quote`). There the form with three quotes is tried first, so what follows the string
must not be a quote.
-/
namespace FencedCode.Toml

open Reader

/-! ## Numbers of characters -/

/-- Four hexadecimal digits are read as they stand. -/
theorem run_fourDigits {a b c d : Char} (h : ∀ e ∈ [a, b, c, d], isHexDigit e = true) (r : Text) :
    ((Reader.char isHexDigit).timesSucc 3).run (a :: b :: c :: d :: r) = some ([a, b, c, d], r) :=
  run_timesSucc_char h r

/-- The number of a character is a code point. -/
theorem codePoint?_toNat (c : Char) : codePoint? c.toNat = some c := by
  have hvalid : c.toNat.isValidChar := c.valid
  rw [codePoint?, if_pos hvalid, Char.ofNat_toNat]

/-! ## Writing -/

/-- Whether a character is a control: one below U+0020, or one from U+007F to U+009F. -/
def isControl (c : Char) : Bool :=
  c.toNat < 32 || (127 ≤ c.toNat && c.toNat < 160)

/-- What may be chosen in writing a string between double quotes. -/
structure StringStyle where
  /-- whether the quote and the backslash are written by their numbers, as the controls are, and not
  after a backslash -/
  byNumber : Bool
  /-- the hexadecimal digits, small or capital -/
  hexDigit : Nat → Char
  isHexDigit_hexDigit : ∀ n < 16, isHexDigit (hexDigit n) = true
  digitValue_hexDigit : ∀ n < 16, digitValue (hexDigit n) = n

namespace StringStyle

/-- A character by its number, for those that have one below 256. -/
def numberEscape (style : StringStyle) (c : Char) : Text :=
  ['\\', 'u', '0', '0', style.hexDigit (c.toNat / 16), style.hexDigit (c.toNat % 16)]

/-- A character between the quotes. -/
def escape (style : StringStyle) (c : Char) : Text :=
  if c = '"' ∨ c = '\\' then if style.byNumber then style.numberEscape c else ['\\', c]
  else if isControl c then style.numberEscape c
  else [c]

/-- A text between double quotes. -/
def quote (style : StringStyle) (t : Text) : Text :=
  '"' :: (t.flatMap style.escape ++ ['"'])

/-- Small letters, and the short escapes. -/
def plain : StringStyle where
  byNumber := false
  hexDigit := Nat.digitChar
  isHexDigit_hexDigit := by decide
  digitValue_hexDigit := by decide

end StringStyle

/-! ## Reading -/

section

variable {c : Char} {r : Text}

/-- A number below 256 is read from its two last digits. -/
theorem number_hexDigits (style : StringStyle) {n : Nat} (h : n < 256) :
    number 16 ['0', '0', style.hexDigit (n / 16), style.hexDigit (n % 16)] = n := by
  have hzero : digitValue '0' = 0 := by decide
  have hhigh := style.digitValue_hexDigit (n / 16) (by omega)
  have hlow := style.digitValue_hexDigit (n % 16) (by omega)
  simp only [number, List.foldl_cons, List.foldl_nil, hzero, hhigh, hlow]
  omega

/-- A character that is escaped by its number is read back from its digits. -/
theorem run_numberEscape (style : StringStyle) (h : c.toNat < 256) (r : Text) :
    escape.run (style.numberEscape c ++ r) = some (c, r) := by
  have hdigits : ∀ e ∈ ['0', '0', style.hexDigit (c.toNat / 16), style.hexDigit (c.toNat % 16)],
      isHexDigit e = true := by
    simp only [List.forall_mem_cons]
    exact ⟨by decide, by decide, style.isHexDigit_hexDigit _ (by omega),
      style.isHexDigit_hexDigit _ (by omega), List.forall_mem_nil _⟩
  have hnumber := number_hexDigits style h
  show escape.run ('\\' :: 'u' :: '0' :: '0' :: style.hexDigit (c.toNat / 16) ::
    style.hexDigit (c.toNat % 16) :: r) = some (c, r)
  refine run_right (run_exactly '\\' _) ?_
  -- the letter stands for no character, so the digits after it are read
  rw [run_orElse_right (run_filterMap_of_none (run_char_cons rfl _) rfl)]
  refine run_orElse_left (run_right (run_exactly 'u' _) ?_)
  refine run_filterMap (run_fourDigits hdigits r) ?_
  rw [hnumber, codePoint?_toNat]

/-- What is written for a character is read as that character. -/
theorem run_escape (style : StringStyle) (c : Char) (r : Text) :
    (basicChar <|> escape).run (style.escape c ++ r) = some (c, r) := by
  -- a backslash never stands for itself
  have hbackslash {s : Text} {x : Char × Text} (h : escape.run ('\\' :: s) = some x) :
      (basicChar <|> escape).run ('\\' :: s) = some x := by
    rw [basicChar, run_orElse_right (run_char_cons_of_not (by decide) s), h]
  unfold StringStyle.escape
  split_ifs with hquoted hstyle hcontrol
  · have hsmall : c.toNat < 256 := by
      rcases hquoted with rfl | rfl <;> decide
    exact hbackslash (run_numberEscape style hsmall r)
  · have hshort : shortEscape? c = some c := by
      rcases hquoted with rfl | rfl <;> rfl
    exact hbackslash (run_right (run_exactly '\\' _)
      (run_orElse_left (run_filterMap (run_char_cons rfl r) hshort)))
  · have hsmall : c.toNat < 256 := by
      simp only [isControl, Bool.or_eq_true, Bool.and_eq_true, decide_eq_true_eq] at hcontrol
      omega
    exact hbackslash (run_numberEscape style hsmall r)
  · refine run_orElse_left (run_char_cons ?_ r)
    simp only [isControl, Bool.or_eq_true, Bool.and_eq_true, decide_eq_true_eq, not_or,
      not_and] at hcontrol
    have hspace : ' ' ≤ c := Nat.le_of_not_lt hcontrol.1
    have hdelete : c ≠ '\x7f' := by
      rintro rfl
      exact hcontrol.2 (by decide) (by decide)
    have hplain : isPlain c = true := by
      simp [isPlain, hspace, hdelete]
    rw [not_or] at hquoted
    simp [hplain, hquoted]

/-- A text between its quotes is read as that text. -/
theorem run_basicString (style : StringStyle) (t r : Text) :
    basicString.run (style.quote t ++ r) = some (t, r) := by
  have hclose : (basicChar <|> escape).run ('"' :: r) = none := by
    rw [basicChar, run_orElse_right (run_char_cons_of_not (by decide) r)]
    exact run_right_of_none (run_exactly_of_ne (by decide) r)
  have hmany := many_flatMap (fun c (_ : c ∈ t) r => run_escape style c r) hclose
  have hquote : style.quote t ++ r = '"' :: (t.flatMap style.escape ++ '"' :: r) := by
    simp [StringStyle.quote]
  have hopen : (Reader.word '"' []).run ('"' :: (t.flatMap style.escape ++ '"' :: r)) =
      some ((), t.flatMap style.escape ++ '"' :: r) :=
    run_map _ (run_exactly '"' _)
  rw [hquote]
  exact run_map _ (run_seq (run_map _ (run_andMany hopen hmany))
    (run_map _ (run_exactly '"' r)))

/-- What is written for a character does not start with a quote. -/
theorem head?_escape_ne (style : StringStyle) (c : Char) :
    ∃ d s, style.escape c = d :: s ∧ d ≠ '"' := by
  unfold StringStyle.escape
  split_ifs with hquoted
  · exact ⟨_, _, rfl, by decide⟩
  · exact ⟨_, _, rfl, by decide⟩
  · exact ⟨_, _, rfl, by decide⟩
  · exact ⟨c, [], rfl, fun h => hquoted (Or.inl h)⟩

/-- No string starts with three quotes. -/
theorem run_basicLines_quote (style : StringStyle) (hr : r.head? ≠ some '"') (t : Text) :
    basicLines.run (style.quote t ++ r) = none := by
  have hopen : (openingQuotes '"').run (style.quote t ++ r) = none := by
    refine run_before_of_none ?_
    -- after the empty string comes no third quote, in any other no second one
    cases t with
    | nil =>
      refine run_right_of_some_none (run_exactly '"' _) ?_
      refine run_right_of_some_none (run_exactly '"' _) (run_map_of_none _ ?_)
      cases r with
      | nil => rfl
      | cons d r => exact run_exactly_of_ne (fun h => hr (congrArg some h)) r
    | cons c t =>
      obtain ⟨d, s, hescape, hd⟩ := head?_escape_ne style c
      have hquote : style.quote (c :: t) ++ r =
          '"' :: d :: (s ++ t.flatMap style.escape ++ '"' :: r) := by
        simp [StringStyle.quote, hescape]
      rw [hquote]
      exact run_right_of_some_none (run_exactly '"' _) (run_right_of_none (run_exactly_of_ne hd _))
  exact run_map_of_none _ (run_seq_of_none (run_map_of_none _ (run_andMany_of_none hopen)))

/-- A string is read as one in whatever form strings may have. -/
theorem run_anyString_quote (style : StringStyle) (hr : r.head? ≠ some '"') (t : Text) :
    anyString.run (style.quote t ++ r) = some (t, r) := by
  rw [anyString, run_orElse_right (run_basicLines_quote style hr t), run_orElse_right]
  · exact run_orElse_left (run_basicString style t r)
  · rfl

/-- A string is read as a value at any depth. -/
theorem run_value_quote (style : StringStyle) (depth : Nat) (hr : r.head? ≠ some '"') (t : Text) :
    (value depth).run (style.quote t ++ r) =
      some (.scalar (.string t) ⟨style.quote t ++ r, r⟩, r) := by
  have hscalar : scalar.run (style.quote t ++ r) = some (.string t, r) :=
    run_orElse_left (run_map _ (run_anyString_quote style hr t))
  cases depth with
  | zero => exact run_map _ (run_spanned hscalar)
  | succ depth => exact run_orElse_left (run_map _ (run_spanned hscalar))

end

end FencedCode.Toml
