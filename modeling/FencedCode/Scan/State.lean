import FencedCode.Block
import FencedCode.Language

/-!
# One line of a scan

A scan stands outside all blocks or inside one. Outside, a line that opens a block of the language
leads inside. Inside, a line that is exactly a fence closes the block and yields it, any other line
that starts with a fence drops it, and all other lines are its content. `State.step` is this rule
for one line.

What a scan remembers of a block stays when the block is closed; it is only forgotten when the next
one opens.
-/
namespace FencedCode.Scan

/-- Where a scan stands between two lines. -/
inductive Mode where
  | outside
  | inside
  deriving DecidableEq, Repr

/-- What a scan remembers between two lines. Outside all blocks everything but the mode is left over
from an earlier block. -/
structure State where
  mode : Mode
  /-- the line on which the block starts -/
  blockStart : Nat
  /-- the lines of the block so far, the latest first -/
  linesRev : List Text
  /-- the attributes of the block -/
  attributes : Text
  deriving DecidableEq, Repr

/-- What a line brings about, apart from the new state. -/
inductive Event where
  /-- nothing to report -/
  | quiet
  /-- a block is complete -/
  | emitted (block : Block)
  /-- the block that starts at line `start` is dropped -/
  | dropped (start : Nat)
  deriving DecidableEq, Repr

namespace State

/-- The state before the first line. -/
def initial : State where
  mode := .outside
  blockStart := 0
  linesRev := []
  attributes := []

/-- A block opens at the line of the given number. -/
def entered (number : Nat) (attributes : Text) : State where
  mode := .inside
  blockStart := number
  linesRev := []
  attributes := attributes

/-- One more line of the block. -/
def push (state : State) (line : Text) : State :=
  { state with linesRev := line :: state.linesRev }

/-- The block that is complete. -/
def block (state : State) : Block where
  startLine := state.blockStart
  attributes := state.attributes
  content := ['\n'].intercalate state.linesRev.reverse

/-- The block is complete; what was remembered of it stays. -/
def close (state : State) : State :=
  { state with mode := .outside }

/-- The block is dropped. -/
def discard (state : State) : State :=
  { state with mode := .outside, linesRev := [], attributes := [] }

/-- Takes the line of the given number. -/
def step (language : Language) (number : Nat) (line : Text) (state : State) : State × Event :=
  match state.mode with
  | .outside =>
    match language.opening? line with
    | some attributes => (entered number attributes, .quiet)
    | none => (state, .quiet)
  | .inside =>
    if line = fence then (state.close, .emitted state.block)
    else if isFenceLine line then (state.discard, .dropped state.blockStart)
    else (state.push line, .quiet)

end State

end FencedCode.Scan
