import FencedCode.Scan.Scanner

/-!
# The trace of a scan

`trace` follows the rule for one line, `State.step`, over a list of lines and keeps all that comes
of it: the blocks that a fence closes, the remarks on dropped blocks and the state after the last
line. Draining a scanner gives the blocks and the remarks of the trace (`scanLines_eq`), so what is
proved of traces by induction on the lines holds of scanners.

## What counts of a state

A state remembers things of blocks that are over. `State.openBlock?` is what counts of it, the block
that is open, and there is one lemma for each thing a line can do to it, from `State.step_opening`
to `State.step_nested`.
-/
namespace FencedCode.Scan

/-! ## The block that is open -/

/-- A block that is open, with its lines so far in the order of the document. -/
structure OpenBlock where
  start : Nat
  attributes : Text
  lines : List Text
  deriving DecidableEq, Repr

namespace OpenBlock

/-- The block as it is when it ends here. -/
def close (block : OpenBlock) : Block where
  startLine := block.start
  attributes := block.attributes
  content := ['\n'].intercalate block.lines

/-- The block with further lines. -/
def append (block : OpenBlock) (lines : List Text) : OpenBlock :=
  { block with lines := block.lines ++ lines }

@[simp] theorem append_nil (block : OpenBlock) : block.append [] = block := by
  simp [append]

/-- Lines can be added to a block in two parts. -/
@[simp] theorem append_append (block : OpenBlock) (lines more : List Text) :
    (block.append lines).append more = block.append (lines ++ more) := by
  simp [append]

end OpenBlock

namespace State

/-- The block that is open, if one is. -/
def openBlock? (state : State) : Option OpenBlock :=
  match state.mode with
  | .outside => none
  | .inside => some ⟨state.blockStart, state.attributes, state.linesRev.reverse⟩

@[simp] theorem openBlock?_initial : initial.openBlock? = none :=
  rfl

/-- A block is entered without any lines in it. -/
@[simp] theorem openBlock?_entered (number : Nat) (attributes : Text) :
    (entered number attributes).openBlock? = some ⟨number, attributes, []⟩ :=
  rfl

/-- Nothing is open after a block is closed, although its lines may still be kept. -/
@[simp] theorem openBlock?_close (state : State) : state.close.openBlock? = none :=
  rfl

@[simp] theorem openBlock?_discard (state : State) : state.discard.openBlock? = none :=
  rfl

/-- Without an open block the scan is outside. -/
theorem mode_of_openBlock?_none {state : State} (h : state.openBlock? = none) :
    state.mode = .outside := by
  unfold openBlock? at h
  split at h
  · assumption
  · cases h

/-- With one it is inside, and what it has kept is that block. -/
theorem mode_of_openBlock?_some {state : State} {block : OpenBlock}
    (h : state.openBlock? = some block) :
    state.mode = .inside ∧
      block = ⟨state.blockStart, state.attributes, state.linesRev.reverse⟩ := by
  unfold openBlock? at h
  split at h
  · cases h
  · exact ⟨by assumption, (Option.some.inj h).symm⟩

/-- A state inside a block completes it as it stands. -/
theorem block_eq {state : State} {block : OpenBlock} (h : state.openBlock? = some block) :
    state.block = block.close := by
  rw [(mode_of_openBlock?_some h).2]
  rfl

/-- A line that is kept is added to the open block. -/
theorem openBlock?_push {state : State} {block : OpenBlock} (h : state.openBlock? = some block)
    (line : Text) : (state.push line).openBlock? = some (block.append [line]) := by
  obtain ⟨hmode, rfl⟩ := mode_of_openBlock?_some h
  simp [openBlock?, push, hmode, OpenBlock.append]

/-! ## One step, by what is open -/

variable {language : Language} {number : Nat} {line attributes : Text} {state : State}
  {block : OpenBlock}

/-- Outside, a line that opens a block leads inside. -/
theorem step_opening (h : state.openBlock? = none)
    (hline : language.opening? line = some attributes) :
    state.step language number line = (entered number attributes, .quiet) := by
  rw [step, mode_of_openBlock?_none h]
  simp only [hline]

/-- Outside, no other line does anything. -/
theorem step_prose (h : state.openBlock? = none) (hline : language.opening? line = none) :
    state.step language number line = (state, .quiet) := by
  rw [step, mode_of_openBlock?_none h]
  simp only [hline]

/-- Inside, a line that starts with no fence is content. -/
theorem step_body (h : state.openBlock? = some block) (hline : isFenceLine line = false) :
    state.step language number line = (state.push line, .quiet) := by
  have hne : line ≠ fence := fun he => by rw [he] at hline; cases hline
  simp only [step, (mode_of_openBlock?_some h).1, if_neg hne, hline, Bool.false_eq_true, if_false]

/-- Inside, a bare fence completes the block. -/
theorem step_closing (h : state.openBlock? = some block) :
    state.step language number fence = (state.close, .emitted block.close) := by
  simp only [step, (mode_of_openBlock?_some h).1, if_true, block_eq h]

/-- Inside, any other line that starts with a fence drops the block. -/
theorem step_nested (h : state.openBlock? = some block) (hline : isFenceLine line = true)
    (hne : line ≠ fence) :
    state.step language number line = (state.discard, .dropped block.start) := by
  simp only [step, (mode_of_openBlock?_some h).1, if_neg hne, hline, if_true]
  rw [(mode_of_openBlock?_some h).2]

end State

/-! ## All steps -/

namespace Event

/-- The block that is complete, if one is. -/
def block? : Event → Option Block
  | emitted block => some block
  | _ => none

/-- The remark on a block that is dropped at the line of the given number. -/
def record? (language : Text) (number : Nat) : Event → Option Record
  | dropped start => some (.dropped language start number)
  | _ => none

end Event

/-- What lines bring about. -/
structure Trace where
  /-- the blocks that a fence closes -/
  closed : List Block
  /-- the remarks on dropped blocks -/
  dropped : List Record
  /-- the state after the last line -/
  state : State

namespace Trace

/-- All blocks, one that the end leaves open included. -/
def blocks (t : Trace) : List Block :=
  t.closed ++ (t.state.openBlock?.map OpenBlock.close).toList

/-- All remarks, one on a block that the end leaves open included. -/
def records (language : Text) (t : Trace) : List Record :=
  t.dropped ++ (t.state.openBlock?.map fun block => .unclosed language block.start).toList

/-- What lines bring about that an event precedes. -/
def after (language : Text) (number : Nat) (event : Event) (t : Trace) : Trace where
  closed := event.block?.toList ++ t.closed
  dropped := (event.record? language number).toList ++ t.dropped
  state := t.state

/-- What lines bring about and then further lines. -/
def followedBy (t u : Trace) : Trace where
  closed := t.closed ++ u.closed
  dropped := t.dropped ++ u.dropped
  state := u.state

end Trace

/-- What lines bring about from a state on, the first of them being that after `taken` others. -/
def trace (language : Language) : List Text → Nat → State → Trace
  | [], _, state => ⟨[], [], state⟩
  | line :: lines, taken, state =>
    let (next, event) := state.step language (taken + 1) line
    (trace language lines (taken + 1) next).after language.name (taken + 1) event

section

variable {language : Language}

theorem trace_nil (taken : Nat) (state : State) : trace language [] taken state = ⟨[], [], state⟩ :=
  rfl

/-- A line is taken by one step, and the rest is scanned from there. -/
theorem trace_cons (line : Text) (lines : List Text) (taken : Nat) (state : State) :
    trace language (line :: lines) taken state =
      (trace language lines (taken + 1) (state.step language (taken + 1) line).1).after
        language.name (taken + 1) (state.step language (taken + 1) line).2 :=
  rfl

/-- A block that a step gives comes before those of the rest. -/
theorem Trace.blocks_after (name : Text) (number : Nat) (event : Event) (t : Trace) :
    (t.after name number event).blocks = event.block?.toList ++ t.blocks :=
  List.append_assoc ..

/-- Of two scans in a row the second gives what the first left open. -/
theorem Trace.blocks_followedBy (t u : Trace) : (t.followedBy u).blocks = t.closed ++ u.blocks :=
  List.append_assoc ..

/-- A trace goes on where the lines before it end. -/
theorem trace_append (lines more : List Text) (taken : Nat) (state : State) :
    trace language (lines ++ more) taken state =
      (trace language lines taken state).followedBy
        (trace language more (taken + lines.length) (trace language lines taken state).state) := by
  induction lines generalizing taken state with
  | nil => rfl
  | cons line lines ih =>
    rw [List.cons_append, trace_cons, trace_cons, ih]
    simp only [Trace.after, Trace.followedBy, List.append_assoc, List.length_cons]
    rw [Nat.add_assoc taken 1, Nat.add_comm 1]

/-- Lines that start with no fence are content of an open block. -/
theorem trace_body (language : Language) {state : State} {block : OpenBlock}
    (h : state.openBlock? = some block) {body : List Text}
    (hbody : ∀ line ∈ body, isFenceLine line = false) (taken : Nat) :
    ∃ last, trace language body taken state = ⟨[], [], last⟩ ∧
      last.openBlock? = some (block.append body) := by
  induction body generalizing taken state block with
  | nil => exact ⟨state, rfl, by rw [h, OpenBlock.append_nil]⟩
  | cons line body ih =>
    have hline : isFenceLine line = false := hbody line (by simp)
    have hrest : ∀ line ∈ body, isFenceLine line = false := fun l hl => hbody l (by simp [hl])
    obtain ⟨last, htrace, hlast⟩ := ih (State.openBlock?_push h line) hrest (taken + 1)
    refine ⟨last, ?_, by rw [hlast, OpenBlock.append_append]; rfl⟩
    rw [trace_cons, State.step_body h hline, htrace]
    rfl

end

/-! ## Draining a scanner -/

section

variable {language : Language} {state : State} {taken : Nat} {records : List Record}

/-- A scanner that has met the end gives nothing more. -/
theorem drain_exhausted (items : List (Option Text)) :
    BlockSource.drain (⟨language, items, taken, state, true, records⟩ : Scanner) =
      ([], ⟨language, items, taken, state, true, records⟩) :=
  BlockSource.drain_of_next_none rfl

/-- At the end of the lines a scanner gives the block that is still open. -/
theorem drain_nil :
    BlockSource.drain (⟨language, [], taken, state, false, records⟩ : Scanner) =
      ((state.openBlock?.map OpenBlock.close).toList,
        ⟨language, [], taken, state.close, true, records ++
          (state.openBlock?.map
            fun block => Record.unclosed language.name block.start).toList⟩) := by
  obtain ⟨mode, start, linesRev, attributes⟩ := state
  cases mode with
  | outside =>
    rw [BlockSource.drain_of_next_none rfl]
    simp [State.openBlock?, State.close]
  | inside =>
    rw [BlockSource.drain_of_next_some rfl, drain_exhausted]
    rfl

/-- A scanner goes on when a line brings about nothing. -/
theorem next_of_quiet {line : Text} {next : State}
    (h : state.step language (taken + 1) line = (next, .quiet)) (items : List (Option Text)) :
    BlockSource.next (⟨language, some line :: items, taken, state, false, records⟩ : Scanner) =
      Scanner.next ⟨language, items, taken + 1, next, false, records⟩ := by
  show Scanner.advance language (some line :: items) taken state records = _
  rw [Scanner.advance, h]
  rfl

/-- A scanner stops at a line that completes a block. -/
theorem next_of_emitted {line : Text} {next : State} {block : Block}
    (h : state.step language (taken + 1) line = (next, .emitted block))
    (items : List (Option Text)) :
    BlockSource.next (⟨language, some line :: items, taken, state, false, records⟩ : Scanner) =
      (some block, ⟨language, items, taken + 1, next, false, records⟩) := by
  show Scanner.advance language (some line :: items) taken state records = _
  rw [Scanner.advance, h]

/-- A scanner goes on when a line drops a block, with a remark on it. -/
theorem next_of_dropped {line : Text} {next : State} {start : Nat}
    (h : state.step language (taken + 1) line = (next, .dropped start))
    (items : List (Option Text)) :
    BlockSource.next (⟨language, some line :: items, taken, state, false, records⟩ : Scanner) =
      Scanner.next ⟨language, items, taken + 1, next, false,
        records ++ [.dropped language.name start (taken + 1)]⟩ := by
  show Scanner.advance language (some line :: items) taken state records = _
  rw [Scanner.advance, h]
  rfl

/-- A scanner drained over lines gives what their trace holds. -/
theorem drain_eq (lines : List Text) :
    BlockSource.drain (⟨language, lines.map some, taken, state, false, records⟩ : Scanner) =
      ((trace language lines taken state).blocks,
        ⟨language, [], taken + lines.length, (trace language lines taken state).state.close, true,
          records ++ (trace language lines taken state).records language.name⟩) := by
  -- by induction on the lines, for every state and every number of lines taken before
  induction lines generalizing taken state records with
  | nil => exact drain_nil
  | cons line lines ih =>
    rw [List.map_cons, trace_cons, List.length_cons, ← Nat.add_assoc, Nat.add_right_comm]
    rcases hstep : state.step language (taken + 1) line with ⟨next, _ | block | start⟩
    · rw [BlockSource.drain_congr (next_of_quiet hstep _), ih]
      rfl
    · rw [BlockSource.drain_of_next_some (next_of_emitted hstep _), ih]
      rfl
    · rw [BlockSource.drain_congr (next_of_dropped hstep _), ih, List.append_assoc]
      rfl

end

/-- All blocks and all remarks of lines are those of their trace. -/
theorem scanLines_eq (language : Language) (lines : List Text) :
    scanLines language lines =
      ((trace language lines 0 .initial).blocks,
        (trace language lines 0 .initial).records language.name) := by
  rw [scanLines, Scanner.ofLines, Scanner.ofItems, drain_eq]
  rfl

end FencedCode.Scan
