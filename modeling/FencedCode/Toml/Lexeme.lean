import FencedCode.Text.Reader

/-!
# The smallest parts of a TOML text

Blanks, line ends, comments and digits.
-/
namespace FencedCode.Toml

/-- Whether a character is a blank within a line. -/
def isBlank (c : Char) : Bool :=
  c == ' ' || c == '\t'

/-- Blanks, possibly none. -/
def blanks : Filler :=
  .dropWhile isBlank

/-- One line end: a newline, alone or after a carriage return. -/
def newline : Reader Unit :=
  .word '\n' [] <|> .word '\r' ['\n']

/-- Whether a character may stand in a text without an escape: every one but the controls other
than the tab. -/
def isPlain (c : Char) : Bool :=
  c == '\t' || (' ' ≤ c && c != '\x7f')

/-- A comment, up to the end of its line. -/
def comment : Reader Unit :=
  ((Reader.exactly '#').before (.dropWhile isPlain)).map fun _ => ()

/-- The end of a line: blanks, a comment or none, then a line end or the end of the text. -/
def endOfLine : Filler :=
  (blanks.seq (.optional comment)).seq (.orEnd newline)

/-- Blanks, line ends and comments in any number, as they may stand between the items of an
array. -/
def lineBreaks : Filler :=
  .many ((Reader.char isBlank).map (fun _ => ()) <|> newline <|> comment)

/-- A decimal digit. -/
def digit : Reader Char :=
  .char Char.isDigit

/-- Whether a character is a hexadecimal digit. -/
def isHexDigit (c : Char) : Bool :=
  c.isDigit || ('a' ≤ c && c ≤ 'f') || ('A' ≤ c && c ≤ 'F')

/-- Digits of which each but the first may have an underscore before it. -/
def underscored (first digit : Reader Char) : Reader (List Char) :=
  (first.andMany (digit <|> (Reader.exactly '_').right digit)).map fun (d, ds) => d :: ds

/-- The value of a digit, in a base up to sixteen. -/
def digitValue (c : Char) : Nat :=
  if c.isDigit then c.toNat - '0'.toNat else c.toLower.toNat - 'a'.toNat + 10

/-- The number that digits write in a base. -/
def number (base : Nat) (digits : List Char) : Nat :=
  digits.foldl (fun n d => base * n + digitValue d) 0

/-- A reader after a plus or minus sign, or without one; `true` stands for a minus. -/
def signed {α : Type} (p : Reader α) : Reader (Bool × α) :=
  (Reader.exactly '-').right (p.map (true, ·)) <|>
    (Reader.exactly '+').right (p.map (false, ·)) <|> p.map (false, ·)

end FencedCode.Toml
