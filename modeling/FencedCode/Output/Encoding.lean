import FencedCode.Block
import FencedCode.Output.Format
import FencedCode.Output.JsonText

/-!
# Encoded blocks

The bytes of one block in either format, in the pieces in which they are handed to a sink. A record
is one piece. A JSON line is two, the object and its newline, because a failure in the object is
reported as such.
-/
namespace FencedCode

/-- The part of a write in which it can fail. -/
inductive Stage where
  /-- the record -/
  | record
  /-- the object of a JSON line -/
  | object
  /-- the newline of a JSON line -/
  | newline
  /-- the flush after the block -/
  | flush
  deriving DecidableEq, Repr

namespace Block

/-- A block as a record: its fields as they are, between tabs, and a NUL. -/
def record (block : Block) : Text :=
  Text.ofNat block.startLine ++ '\t' :: block.attributes ++ '\t' :: block.content ++ ['\x00']

/-- A block as a JSON object on one line. -/
def object (block : Block) : Text :=
  "\x7b\"start_line\":".toList ++ Text.ofNat block.startLine ++ ",\"attributes\":".toList ++
    JsonText.quote block.attributes ++ ",\"content\":".toList ++ JsonText.quote block.content ++
    "\x7d".toList

/-- The pieces of a block in a format, each with the stage that writes it. A stage hands over all
its bytes as one piece: to the sinks here it makes no difference in how many fragments they come
(`LimitedSink.writePieces_fragments`, `FullDevice.writePieces_fragments`). -/
def pieces (block : Block) : Format → List (Stage × Bytes)
  | .records => [(.record, block.record.utf8)]
  | .json => [(.object, block.object.utf8), (.newline, Text.utf8 ['\n'])]

/-- All bytes of a block in a format. -/
def encode (block : Block) (format : Format) : Bytes :=
  (block.pieces format).flatMap Prod.snd

end Block

end FencedCode
