import FencedCode.Text.Extending
import FencedCode.Text.Unprintable
import FencedCode.Text.Basic

/-!
# Quoted texts

How a message shows a text that it cannot trust to be readable: between double quotes, with every
character that would not be seen, or would be seen as part of its neighbour, written as an escape.
The result is one line whatever the text holds.
-/
namespace FencedCode.Text

/-- A character inside the quotes: short escapes for the usual controls, the quote and the
backslash, the code point in braces for any other character without a glyph of its own. -/
def quoteChar (c : Char) : Text :=
  match c with
  | '\x00' => ['\\', '0']
  | '\t' => ['\\', 't']
  | '\n' => ['\\', 'n']
  | '\r' => ['\\', 'r']
  | '"' => ['\\', '"']
  | '\\' => ['\\', '\\']
  | c =>
    if isExtending c || isUnprintable c then
      ['\\', 'u', '\x7b'] ++ Nat.toDigits 16 c.toNat ++ ['\x7d']
    else
      [c]

/-- A text between double quotes, each of its characters as `quoteChar` writes it. -/
def quoted (t : Text) : Text :=
  '"' :: t.flatMap quoteChar ++ ['"']

/-- Quoted texts between brackets, separated by a comma and a blank. -/
def quotedList (ts : List Text) : Text :=
  '[' :: [',', ' '].intercalate (ts.map quoted) ++ [']']

end FencedCode.Text
