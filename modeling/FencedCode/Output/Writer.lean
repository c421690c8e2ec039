import FencedCode.BlockSource
import FencedCode.Output.Encoding
import FencedCode.Output.Sink

/-!
# Writing blocks

Blocks are drawn from a source one at a time, and each is written and flushed before the next is
drawn, so that a reader of the output sees it at once. The first refusal ends the writing and is
reported with the block's start line.
-/
namespace FencedCode

/-- A failure to write the block that starts at line `line`. -/
structure WriteError where
  line : Nat
  stage : Stage
  cause : SinkFault
  deriving DecidableEq, Repr

namespace Stage

/-- What a message says of a stage before it gives the cause. -/
def context : Stage → Text
  | record | newline => []
  | object => "Failed to serialize block: ".toList
  | flush => "Failed to write output: ".toList

end Stage

/-- The wording of a failure. -/
def WriteError.message (e : WriteError) : Text :=
  "Failed to write block at line ".toList ++ Text.ofNat e.line ++ ": ".toList ++
    e.stage.context ++ e.cause.message

section

variable {σ τ : Type} [Sink τ]

/-- Hands pieces to a sink, up to the first refusal. -/
def writePieces : List (Stage × Bytes) → τ → τ × Option (Stage × SinkFault)
  | [], sink => (sink, none)
  | (stage, bytes) :: pieces, sink =>
    match Sink.write sink bytes with
    | (sink, none) => writePieces pieces sink
    | (sink, some fault) => (sink, some (stage, fault))

/-- Writes one block and flushes. -/
def writeBlock (format : Format) (block : Block) (sink : τ) : τ × Option WriteError :=
  match writePieces (block.pieces format) sink with
  | (sink, some (stage, fault)) => (sink, some ⟨block.startLine, stage, fault⟩)
  | (sink, none) =>
    match Sink.flush sink with
    | (sink, some fault) => (sink, some ⟨block.startLine, .flush, fault⟩)
    | (sink, none) => (sink, none)

/-- How a run of writes ended. -/
structure WriteReport (σ τ : Type) where
  /-- how many blocks were written, or the failure -/
  result : Except WriteError Nat
  /-- the sink at the end -/
  sink : τ
  /-- the source at the end -/
  source : σ
  /-- how many blocks were drawn, one that failed included -/
  drawn : Nat

variable [BlockSource σ]

/-- Writes the blocks of a source, after `written` others. -/
def writeFrom (format : Format) (source : σ) (sink : τ) (written : Nat) : WriteReport σ τ :=
  match _h : BlockSource.next source with
  | (none, rest) => ⟨.ok written, sink, rest, written⟩
  | (some block, rest) =>
    match writeBlock format block sink with
    | (sink, some e) => ⟨.error e, sink, rest, written + 1⟩
    | (sink, none) => writeFrom format rest sink (written + 1)
termination_by BlockSource.size source
decreasing_by
  have := BlockSource.size_next_lt source block (by rw [_h])
  rwa [_h] at this

/-- Writes all blocks of a source. -/
def writeBlocks (format : Format) (source : σ) (sink : τ) : WriteReport σ τ :=
  writeFrom format source sink 0

end

end FencedCode
