import FencedCode.Text.Blank

/-!
# Blocks

A block is what one fenced region of a document holds: the line it starts on, its attributes and
its content. The attributes are free text; read as a list separated by commas they give the block's
flags.
-/
namespace FencedCode

/-- A fenced block of the target language. -/
structure Block where
  /-- the line of the opening fence, counted from one -/
  startLine : Nat
  /-- the text after the first comma of the opening fence, as it stands -/
  attributes : Text
  /-- the lines between the fences, joined by newlines -/
  content : Text
  deriving DecidableEq, Repr

namespace Block

/-- The words of an attribute text: its parts between commas, trimmed, without the empty ones. -/
def words (attributes : Text) : List Text :=
  ((attributes.splitOn ',').map Text.trim).filter fun word => !word.isEmpty

/-- The attribute words of a block, in the order in which they are written. -/
def flags (block : Block) : List Text :=
  words block.attributes

/-- Whether a text is one of the block's attribute words. -/
def hasFlag (block : Block) (flag : Text) : Bool :=
  block.flags.any (· == flag)

/-- The flags are what `hasFlag` looks through. -/
theorem hasFlag_iff {block : Block} {flag : Text} :
    block.hasFlag flag = true ↔ flag ∈ block.flags := by
  simp [hasFlag]

end Block

end FencedCode
