import FencedCode.Output.Encoding
import Mathlib.Data.List.Basic

/-!
# The bytes of blocks

The bytes of one block in closed form, without the pieces in which they are written, and those of
all blocks one after the other.
-/
namespace FencedCode

namespace Text

/-- A newline is one octet. -/
theorem utf8_newline : utf8 ['\n'] = [10] := by
  decide +kernel

end Text

namespace Block

/-- A record is written as it is. -/
theorem encode_records (block : Block) : block.encode .records = block.record.utf8 := by
  simp [encode, pieces]

/-- An object is written with a newline after it. -/
theorem encode_json (block : Block) : block.encode .json = block.object.utf8 ++ [10] := by
  simp [encode, pieces, Text.utf8_newline]

end Block

/-- The bytes of blocks, one block after the other. -/
def encodeAll (format : Format) (blocks : List Block) : Bytes :=
  blocks.flatMap fun block => block.encode format

@[simp] theorem encodeAll_nil (format : Format) : encodeAll format [] = [] :=
  rfl

/-- A further block adds its bytes at the end. -/
theorem encodeAll_concat (format : Format) (blocks : List Block) (block : Block) :
    encodeAll format (blocks ++ [block]) = encodeAll format blocks ++ block.encode format := by
  simp [encodeAll]

end FencedCode
