import FencedCode.Toml.Lexeme

/-!
# TOML strings

The four forms of a string: with escapes between double quotes, as it stands between single quotes,
and either of them over several lines between three quotes. A line end inside a string is read as a
newline however it is written.
-/
namespace FencedCode.Toml

/-- The character of a code point, unless the number is none. -/
def codePoint? (n : Nat) : Option Char :=
  if n.isValidChar then some (Char.ofNat n) else none

/-- The character of a code point written with `n + 1` hexadecimal digits. -/
def codePoint (n : Nat) : Reader Char :=
  ((Reader.char isHexDigit).timesSucc n).filterMap fun ds => codePoint? (number 16 ds)

/-- What a letter after a backslash stands for. -/
def shortEscape? : Char → Option Char
  | 'b' => some '\x08'
  | 't' => some '\t'
  | 'n' => some '\n'
  | 'f' => some '\x0c'
  | 'r' => some '\r'
  | '"' => some '"'
  | '\\' => some '\\'
  | _ => none

/-- An escape: a backslash with a letter or with a code point of four or eight digits. -/
def escape : Reader Char :=
  (Reader.exactly '\\').right
    ((Reader.char fun _ => true).filterMap shortEscape? <|>
      (Reader.exactly 'u').right (codePoint 3) <|> (Reader.exactly 'U').right (codePoint 7))

/-- A character that stands for itself in a string with escapes. -/
def basicChar : Reader Char :=
  .char fun c => isPlain c && c != '"' && c != '\\'

/-- A character that stands for itself in a string without escapes. -/
def literalChar : Reader Char :=
  .char fun c => isPlain c && c != '\''

/-- What a reader takes any number of times between two quotes. -/
def between {α : Type} (quote : Reader Unit) (p : Reader α) (close : Reader Text) :
    Reader (List α × Text) :=
  ((quote.andMany p).map Prod.snd).seq close

/-- A string with escapes on one line. -/
def basicString : Reader Text :=
  (between (.word '"' []) (basicChar <|> escape) ((Reader.exactly '"').map fun _ => [])).map
    Prod.fst

/-- A string without escapes on one line. -/
def literalString : Reader Text :=
  (between (.word '\'' []) literalChar ((Reader.exactly '\'').map fun _ => [])).map Prod.fst

/-- A quote inside a string of several lines: one that does not start three quotes. -/
def loneQuote (quote : Char) : Reader Char where
  run
    | c :: r =>
      if c = quote && !([quote, quote, quote].isPrefixOf (c :: r)) then some (c, r) else none
    | [] => none
  shorter {s a r} h := by
    cases s with
    | nil => contradiction
    | cons c s =>
      simp only [Option.ite_none_right_eq_some, Option.some.injEq, Prod.mk.injEq] at h
      simp [h.2.2]

/-- The end of a string of several lines: three quotes, and up to two more before them that belong
to the string. -/
def closingQuotes (quote : Char) : Reader Text where
  run s :=
    let quotes := min 5 (s.takeWhile (· == quote)).length
    if 3 ≤ quotes then some (List.replicate (quotes - 3) quote, s.drop quotes) else none
  shorter {s a r} h := by
    simp only [Option.ite_none_right_eq_some, Option.some.injEq, Prod.mk.injEq] at h
    obtain ⟨hq, -, rfl⟩ := h
    have := (List.takeWhile_prefix (l := s) (· == quote)).length_le
    rw [List.length_drop]
    omega

/-- A backslash at the end of a line, with all blanks and line ends after it. It stands for
nothing. -/
def lineFold : Reader Text :=
  (((Reader.exactly '\\').before blanks).seq
    (newline.before (.many ((Reader.char isBlank).map (fun _ => ()) <|> newline)))).map fun _ => []

/-- Opens a string of several lines; a line end right after the quotes is not part of it. -/
def openingQuotes (quote : Char) : Reader Unit :=
  (Reader.word quote [quote, quote]).before (.optional newline)

/-- A string with escapes over several lines. -/
def basicLines : Reader Text :=
  (between (openingQuotes '"')
    (lineFold <|> escape.map ([·]) <|> newline.map (fun _ => ['\n']) <|> basicChar.map ([·]) <|>
      (loneQuote '"').map ([·]))
    (closingQuotes '"')).map fun (parts, quotes) => parts.flatten ++ quotes

/-- A string without escapes over several lines. -/
def literalLines : Reader Text :=
  (between (openingQuotes '\'')
    (newline.map (fun _ => '\n') <|> literalChar <|> loneQuote '\'')
    (closingQuotes '\'')).map fun (parts, quotes) => parts ++ quotes

/-- A string on one line, as it may also name a key. -/
def lineString : Reader Text :=
  basicString <|> literalString

/-- A string in any form. -/
def anyString : Reader Text :=
  basicLines <|> literalLines <|> lineString

end FencedCode.Toml
