import FencedCode.Toml.Numeral
import FencedCode.Toml.StringLiteral
import FencedCode.Toml.Tree

/-!
# Reading TOML keys and values

Keys, scalars, and the arrays and tables between braces that hold further values. The depth to which
these may be nested is bounded, and so is the number of parts of a dotted key.
-/
namespace FencedCode.Toml

/-- How many arrays and tables between braces may be inside one another, and how many parts a dotted
key may have. -/
def depthLimit : Nat := 79

/-- Whether a character may stand in a key without quotes. -/
def isBareKeyChar (c : Char) : Bool :=
  c.isAlphanum || c == '_' || c == '-'

/-- A key without dots. -/
def simpleKey : Reader Key :=
  ((lineString <|> (Reader.char isBareKeyChar).oneOrMore).spanned).map fun (name, span) =>
    ⟨name, span⟩

/-- A key, possibly dotted: the parts before the last dot, and the last part. Blanks may stand
around each part. -/
def dottedKey : Reader (List Key × Key) :=
  (((simpleKey.after blanks).before blanks).sepBy (.exactly '.')).filterMap fun keys =>
    if keys.length ≤ depthLimit then keys.getLast?.map fun last => (keys.dropLast, last) else none

/-- A boolean. -/
def boolean : Reader Bool :=
  (Reader.word 't' ['r', 'u', 'e']).map (fun _ => true) <|>
    (Reader.word 'f' ['a', 'l', 's', 'e']).map fun _ => false

/-- A value without parts. -/
def scalar : Reader Scalar :=
  anyString.map .string <|> boolean.map .boolean <|> dateTime.map .dateTime <|>
    float.map .float <|> integer.map .integer

/-- An array of values, on one line or several; a comma may follow the last value. -/
def array (value : Reader Node) : Reader (List Node) :=
  let item := (value.after lineBreaks).before lineBreaks
  let comma := Reader.exactly ','
  (((Reader.exactly '[').before lineBreaks).left (.exactly ']')).map (fun _ => []) <|>
    (((Reader.exactly '[').right (item.sepBy comma)).before
      ((Filler.optional comma).seq lineBreaks)).left (.exactly ']')

/-- A key, an equals sign and a value, without what may follow the value. -/
def assignment (value : Reader Node) : Reader Table.Assignment :=
  (dottedKey.seq ((Reader.exactly '=').right (value.after blanks))).map
    fun ((path, key), value) => ⟨path, key, value⟩

/-- Assignments between braces, on one line. -/
def braces (value : Reader Node) : Reader (List Table.Assignment) :=
  (((Reader.exactly '\x7b').before blanks).left (.exactly '\x7d')).map (fun _ => []) <|>
    ((Reader.exactly '\x7b').right
      (((assignment value).before blanks).sepBy (.exactly ','))).left (.exactly '\x7d')

/-- The table of the assignments between braces. -/
def braceTable (below : List Table.Assignment) (span : Span) : Option Node :=
  (below.foldlM Table.assign ⟨.braces span, []⟩).map .table

/-- A value in which arrays and tables are nested at most to the given depth. -/
def value : (depth : Nat) → Reader Node
  | 0 => scalar.spanned.map fun (v, span) => .scalar v span
  | depth + 1 =>
    scalar.spanned.map (fun (v, span) => .scalar v span) <|>
      (array (value depth)).spanned.map (fun (items, span) => .array items span) <|>
      (braces (value depth)).spanned.filterMap fun (below, span) => braceTable below span

end FencedCode.Toml
