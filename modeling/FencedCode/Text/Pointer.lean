import FencedCode.Text.Span

/-!
# Messages that point into a text

A message about a part of a text is shown below the line where the part starts, with marks under the
part. Lines and columns are counted from one, columns in characters; there are as many marks as the
part has bytes on that line.
-/
namespace FencedCode

/-- A message that points at a part of a text. -/
structure Pointer where
  text : Text
  span : Span
  message : Text
  deriving DecidableEq, Repr

namespace Pointer

/-- The number of the line where the part starts, from one. -/
def line (p : Pointer) : Nat :=
  (p.span.before p.text).count '\n' + 1

/-- What stands before the part on its line. -/
def margin (p : Pointer) : Text :=
  ((p.span.before p.text).reverse.takeWhile (· != '\n')).reverse

/-- The line where the part starts. -/
def sourceLine (p : Pointer) : Text :=
  p.margin ++ p.span.here.takeWhile (· != '\n')

/-- How many marks point at the part: one for each of its bytes, as far as its line goes, and one
at least. -/
def width (p : Pointer) : Nat :=
  max 1 (min p.span.bytes (p.sourceLine.utf8Size - p.margin.length))

/-- The message below the line that it is about, the part marked, under a heading that says where
this is. -/
def render (heading : Text) (p : Pointer) : Text :=
  let number := Text.ofNat p.line
  let gutter := List.replicate (number.length + 1) ' ' ++ ['|']
  heading ++ " at line ".toList ++ number ++ ", column ".toList ++
    Text.ofNat (p.margin.length + 1) ++ ['\n'] ++
    gutter ++ ['\n'] ++
    number ++ " | ".toList ++ p.sourceLine ++ ['\n'] ++
    gutter ++ List.replicate (p.margin.length + 1) ' ' ++ List.replicate p.width '^' ++ ['\n'] ++
    p.message ++ ['\n']

end Pointer

end FencedCode
