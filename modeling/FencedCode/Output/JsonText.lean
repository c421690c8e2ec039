import FencedCode.Text.Basic

/-!
# Text as a JSON string

The quotes, and the escapes for what a JSON string cannot hold as it is: the quote, the backslash
and the controls below U+0020. All other characters stand for themselves.
-/
namespace FencedCode.JsonText

/-- A digit of a hexadecimal number below 16, in small letters. -/
def hexDigit (n : Nat) : Char :=
  Nat.digitChar (n % 16)

/-- A character between the quotes. -/
def escape (c : Char) : Text :=
  if c = '"' then ['\\', '"']
  else if c = '\\' then ['\\', '\\']
  else if ' ' ≤ c then [c]
  else if c = '\x08' then ['\\', 'b']
  else if c = '\t' then ['\\', 't']
  else if c = '\n' then ['\\', 'n']
  else if c = '\x0c' then ['\\', 'f']
  else if c = '\r' then ['\\', 'r']
  else ['\\', 'u', '0', '0', hexDigit (c.toNat / 16), hexDigit c.toNat]

/-- A text as a JSON string. -/
def quote (t : Text) : Text :=
  '"' :: t.flatMap escape ++ ['"']

end FencedCode.JsonText
