import FencedCode.Block
import FencedCode.Text.Reader
import FencedCode.Toml.StringLiteral

/-!
# Reading JSON

JSON texts of objects, strings and integers, read by the grammar that is common to all programs that
exchange them: white space between tokens, strings with all their escapes, pairs of surrogates
included, and whole numbers without needless zeros. It knows nothing of how blocks are written.
-/
namespace FencedCode

/-- What a JSON text stands for. -/
inductive Json where
  | string (text : Text)
  | integer (value : Int)
  | object (members : List (Text × Json))

namespace Json

/-- Whether a character is white space between tokens. -/
def isSpace (c : Char) : Bool :=
  c == ' ' || c == '\t' || c == '\n' || c == '\r'

/-- White space, possibly none. -/
def spaces : Filler :=
  .dropWhile isSpace

/-- A character of the structure, with the white space around it. -/
def token (c : Char) : Reader Char :=
  ((Reader.exactly c).before spaces).after spaces

/-! ## Strings -/

/-- Whether a character may stand for itself in a string. -/
def isUnescaped (c : Char) : Bool :=
  ' ' ≤ c && c != '"' && c != '\\'

/-- What a letter after a backslash stands for. -/
def shortEscape? : Char → Option Char
  | '"' => some '"'
  | '\\' => some '\\'
  | '/' => some '/'
  | 'b' => some '\x08'
  | 'f' => some '\x0c'
  | 'n' => some '\n'
  | 'r' => some '\r'
  | 't' => some '\t'
  | _ => none

/-- A unit of sixteen bits, written with four hexadecimal digits. -/
def codeUnit : Reader Nat :=
  (Reader.exactly 'u').right
    (((Reader.char Toml.isHexDigit).timesSucc 3).map fun ds => Toml.number 16 ds)

/-- The character of a high and a low surrogate. -/
def pairedCodePoint? (high low : Nat) : Option Char :=
  if 0xd800 ≤ high ∧ high < 0xdc00 ∧ 0xdc00 ≤ low ∧ low < 0xe000 then
    Toml.codePoint? (0x10000 + 0x400 * (high - 0xd800) + (low - 0xdc00))
  else none

/-- An escape: a backslash with a letter, with a unit that is a character, or with a high surrogate
and, after another backslash, a low one. -/
def escape : Reader Char :=
  (Reader.exactly '\\').right
    ((Reader.char fun _ => true).filterMap shortEscape? <|> codeUnit.filterMap Toml.codePoint? <|>
      (codeUnit.seq ((Reader.exactly '\\').right codeUnit)).filterMap
        fun (high, low) => pairedCodePoint? high low)

/-- A string between its quotes. -/
def quoted : Reader Text :=
  (((Reader.exactly '"').andMany (Reader.char isUnescaped <|> escape)).left
    (Reader.exactly '"')).map Prod.snd

/-! ## Numbers -/

/-- The digits of a number, which starts with no needless zero. -/
def digits : Reader Text :=
  ((Reader.char fun c => c.isDigit && c != '0').andMany (.char Char.isDigit)).map
      (fun (d, ds) => d :: ds) <|>
    (Reader.exactly '0').map ([·])

/-- A whole number. -/
def number : Reader Int :=
  ((Reader.exactly '-').right digits).map (fun ds => -Int.ofNat (Nat.ofDigitChars 10 ds 0)) <|>
    digits.map fun ds => Int.ofNat (Nat.ofDigitChars 10 ds 0)

/-! ## Values -/

/-- A string or a number. -/
def scalar : Reader Json :=
  quoted.map .string <|> number.map .integer

/-- A member of an object: its name, a colon and its value. -/
def member (value : Reader Json) : Reader (Text × Json) :=
  (quoted.left (token ':')).seq value

/-- The members of an object between its brackets. -/
def members (value : Reader Json) : Reader (List (Text × Json)) :=
  (token '\x7b').right
    (((member value).sepBy (token ',')).left (token '\x7d') <|> (token '\x7d').map fun _ => [])

/-- A value in which objects stand inside one another at most `n` deep. -/
def nested : Nat → Reader Json
  | 0 => scalar
  | n + 1 => scalar <|> (members (nested n)).map .object

/-- The value of a JSON text, with white space around it. No text nests deeper than it is long. -/
def read? (text : Text) : Option Json :=
  match ((nested text.length).after spaces).run text with
  | some (value, rest) => if rest.all isSpace then some value else none
  | none => none

/-! ## Blocks -/

/-- The name under which an object gives the line that a block starts on. -/
def startLineName : Text :=
  "start_line".toList

/-- The name under which an object gives the attributes of a block. -/
def attributesName : Text :=
  "attributes".toList

/-- The name under which an object gives the content of a block. -/
def contentName : Text :=
  "content".toList

/-- The block that an object describes by its members, in whatever order they stand. -/
def block? : Json → Option Block
  | object members =>
    match members.lookup startLineName, members.lookup attributesName,
        members.lookup contentName with
    | some (.integer (.ofNat startLine)), some (.string attributes), some (.string content) =>
      some ⟨startLine, attributes, content⟩
    | _, _, _ => none
  | _ => none

/-- White space, the order of the members, members with other names and the choice of escapes make
no difference, and a pair of surrogates is one character. -/
example :
    (read? ("\x7b \"content\" : \"a\\u00e9\\/\\ud83d\\ude00\\n\",\r\n\"start_line\":7 ,".toList ++
        "\"x\":\x7b\x7d, \"attributes\": \"\" \x7d".toList)).bind block? =
      some ⟨7, [], ['a', 'é', '/', '😀', '\n']⟩ := by
  decide +kernel

end Json

end FencedCode
