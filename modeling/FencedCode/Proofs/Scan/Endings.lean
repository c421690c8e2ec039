import FencedCode.Proofs.Scan.Openers

/-!
# How blocks end

Every block that a scan opens comes to an end: a bare fence closes it, another fence line drops it,
or the lines end inside it. `endings` lists what becomes of the blocks one after the other. The
blocks that a scan gives and its remarks are both read off that list (`blocks_trace_eq_filterMap`,
`records_trace_eq_filterMap`), and the list itself is said without a scan: it holds one ending for
each opener, and the next fence line decides which (`endings_eq`, `endingAt_cases`).
-/
namespace FencedCode.Scan

/-! ## Endings -/

/-- What becomes of a block that was opened. -/
inductive Ending where
  /-- the bare fence on the line of the given number closes the block -/
  | closed (block : Block) (line : Nat)
  /-- the fence on line `line` drops the block that starts at line `start` -/
  | dropped (start line : Nat)
  /-- the lines end inside the block -/
  | unclosed (block : Block)
  deriving DecidableEq, Repr

namespace Ending

/-- The line on which the block starts. -/
def start : Ending → Nat
  | closed block _ | unclosed block => block.startLine
  | dropped start _ => start

/-- The block, if it is given. -/
def block? : Ending → Option Block
  | closed block _ | unclosed block => some block
  | dropped .. => none

/-- The remark on a block that does not end as it should. -/
def record? (language : Text) : Ending → Option Record
  | closed .. => none
  | dropped start line => some (.dropped language start line)
  | unclosed block => some (.unclosed language block.startLine)

/-- A block that is given starts where its ending says. -/
theorem start_eq_of_block? {ending : Ending} {block : Block} (h : ending.block? = some block) :
    ending.start = block.startLine := by
  cases ending with
  | closed => rw [← Option.some.inj h]; rfl
  | dropped => cases h
  | unclosed => rw [← Option.some.inj h]; rfl

end Ending

/-- The ending that an event on the line of the given number is, if it is one. -/
def Event.ending? (number : Nat) : Event → Option Ending
  | quiet => none
  | emitted block => some (.closed block number)
  | dropped start => some (.dropped start number)

/-- What becomes of the block that is open and of those that lines open after it, the first of the
lines being that after `taken` others. -/
def endings (language : Language) : List Text → Nat → State → List Ending
  | [], _, state => (state.openBlock?.map fun block => Ending.unclosed block.close).toList
  | line :: lines, taken, state =>
    let (next, event) := state.step language (taken + 1) line
    (event.ending? (taken + 1)).toList ++ endings language lines (taken + 1) next

section

variable {language : Language}

/-- At the end the block that is still open is unclosed. -/
theorem endings_nil (taken : Nat) (state : State) :
    endings language [] taken state =
      (state.openBlock?.map fun block => Ending.unclosed block.close).toList :=
  rfl

/-- A line comes to the ending of its step, if it has one, and then to those of the lines after it.
-/
theorem endings_cons (line : Text) (lines : List Text) (taken : Nat) (state : State) :
    endings language (line :: lines) taken state =
      ((state.step language (taken + 1) line).2.ending? (taken + 1)).toList ++
        endings language lines (taken + 1) (state.step language (taken + 1) line).1 :=
  rfl

/-- The blocks of a scan are those that are not dropped. -/
theorem blocks_trace_eq_filterMap (lines : List Text) (taken : Nat) (state : State) :
    (trace language lines taken state).blocks =
      (endings language lines taken state).filterMap Ending.block? := by
  induction lines generalizing taken state with
  | nil =>
    rw [trace_nil, endings_nil, Trace.blocks, List.nil_append]
    cases state.openBlock? <;> rfl
  | cons line lines ih =>
    rw [trace_cons, endings_cons, Trace.blocks_after, ih, List.filterMap_append]
    cases (state.step language (taken + 1) line).2 <;> rfl

/-- The remarks of a scan are on those that a bare fence does not close. -/
theorem records_trace_eq_filterMap (lines : List Text) (taken : Nat) (state : State) :
    (trace language lines taken state).records language.name =
      (endings language lines taken state).filterMap (Ending.record? language.name) := by
  induction lines generalizing taken state with
  | nil =>
    rw [trace_nil, endings_nil, Trace.records, List.nil_append]
    cases state.openBlock? <;> rfl
  | cons line lines ih =>
    rw [endings_cons, List.filterMap_append, ← ih, trace_cons, Trace.records, Trace.records,
      Trace.after, List.append_assoc]
    cases (state.step language (taken + 1) line).2 <;> rfl

end

/-! ## The next fence line -/

/-- The number of the first line after line `start` that starts with a fence, if there is one. -/
def nextFence? (lines : List Text) (start : Nat) : Option Nat :=
  ((lines.drop start).findIdx? isFenceLine).map fun index => start + index + 1

/-- The next fence line is found by how many lines are passed over to reach it. -/
theorem nextFence?_eq_some_iff {lines : List Text} {start number : Nat} :
    nextFence? lines start = some number ↔
      ∃ index, (lines.drop start).findIdx? isFenceLine = some index ∧ start + index + 1 = number :=
  Option.map_eq_some_iff

theorem lt_of_nextFence? {lines : List Text} {start number : Nat}
    (h : nextFence? lines start = some number) : start < number := by
  obtain ⟨index, -, rfl⟩ := nextFence?_eq_some_iff.mp h
  omega

/-- A fence line is the last one before the next. -/
theorem fenceBefore_of_nextFence? {lines : List Text} {index number : Nat} {line : Text}
    (hline : lines[index]? = some line) (hfence : isFenceLine line = true)
    (h : nextFence? lines (index + 1) = some number) : FenceBefore lines index (number - 1) := by
  obtain ⟨j, hj, rfl⟩ := nextFence?_eq_some_iff.mp h
  obtain ⟨_, _, hbefore⟩ := List.findIdx?_eq_some_iff_getElem.mp hj
  refine ⟨by omega, ⟨line, hline, hfence⟩, fun k other hk hlt hother => ?_⟩
  obtain ⟨d, rfl⟩ := Nat.exists_eq_add_of_lt hk
  obtain ⟨hd, hget⟩ := List.getElem?_eq_some_iff.mp hother
  have hbody := hbefore d (by omega)
  rw [List.getElem_drop] at hbody
  rw [← hget, ← Bool.not_eq_true]
  simpa only [Nat.add_right_comm index 1 d] using hbody

/-! ## The ending of each opener -/

/-- What becomes of an open block in further lines, which come after `taken` others. -/
def OpenBlock.ending (block : OpenBlock) (taken : Nat) (rest : List Text) : Ending :=
  match rest.findIdx? isFenceLine with
  | none => .unclosed (block.append (bodyOf rest)).close
  | some index =>
    if rest[index]? = some fence then
      .closed (block.append (bodyOf rest)).close (taken + index + 1)
    else
      .dropped block.start (taken + index + 1)

/-- What becomes of the block that the line at an index opens. -/
def endingAt (language : Language) (lines : List Text) (index : Nat) : Ending :=
  OpenBlock.ending ⟨index + 1, (lines[index]?.bind language.opening?).getD [], []⟩ (index + 1)
    (lines.drop (index + 1))

/-- The endings of the openers among `rest`, the lines that come after `pre`. -/
def endingsAfter (language : Language) (pre rest : List Text) : List Ending :=
  ((List.range' pre.length rest.length).filter (isOpener language (pre ++ rest))).map
    (endingAt language (pre ++ rest))

section

variable {language : Language} {line attributes : Text} {pre rest : List Text} {state : State}

/-- A line of the body is kept, and the ending is looked for after it. -/
theorem ending_cons_of_body (hline : isFenceLine line = false) (block : OpenBlock) (taken : Nat)
    (rest : List Text) :
    block.ending taken (line :: rest) = (block.append [line]).ending (taken + 1) rest := by
  rw [OpenBlock.ending, OpenBlock.ending, List.findIdx?_cons, bodyOf_cons, hline,
    OpenBlock.append_append]
  cases rest.findIdx? isFenceLine with
  | none => rfl
  | some index =>
    have hnumber : taken + (index + 1) + 1 = taken + 1 + index + 1 := by omega
    simp [hnumber, OpenBlock.append]

/-- A bare fence closes the block. -/
theorem ending_cons_of_fence (block : OpenBlock) (taken : Nat) (rest : List Text) :
    block.ending taken (fence :: rest) = .closed block.close (taken + 1) := by
  have hfence : isFenceLine fence = true := by decide
  rw [OpenBlock.ending, List.findIdx?_cons, bodyOf_cons, hfence]
  simp

/-- Any other fence line drops it. -/
theorem ending_cons_of_nested (hline : isFenceLine line = true) (hne : line ≠ fence)
    (block : OpenBlock) (taken : Nat) (rest : List Text) :
    block.ending taken (line :: rest) = .dropped block.start (taken + 1) := by
  rw [OpenBlock.ending, List.findIdx?_cons, hline]
  simp [hne]

/-- The ending of an opener, said of the lines after it. -/
theorem endingAt_append (pre : List Text) (line : Text) (rest : List Text) :
    endingAt language (pre ++ line :: rest) pre.length =
      OpenBlock.ending ⟨pre.length + 1, (language.opening? line).getD [], []⟩ (pre.length + 1)
        rest := by
  rw [endingAt, List.drop_length_add_append, List.getElem?_append_right (Nat.le_refl _),
    Nat.sub_self]
  rfl

/-- The endings of the openers among some lines are that of the first line, if it is one, and then
those of the others. -/
theorem endingsAfter_cons (language : Language) (pre : List Text) (line : Text)
    (rest : List Text) :
    endingsAfter language pre (line :: rest) =
      (if isOpener language (pre ++ line :: rest) pre.length then
        [endingAt language (pre ++ line :: rest) pre.length] else []) ++
      endingsAfter language (pre ++ [line]) rest := by
  rw [endingsAfter, List.length_cons, List.range'_succ, List.filter_cons, endingsAfter,
    List.length_append, List.length_singleton, List.append_assoc, List.singleton_append]
  split <;> rfl

/-- A line that is no opener has no ending. -/
theorem endingsAfter_cons_of_not_opens
    (h : latestOpens language (fencesRev (pre ++ [line])) = false ∨ isFenceLine line = false)
    (rest : List Text) :
    endingsAfter language pre (line :: rest) = endingsAfter language (pre ++ [line]) rest := by
  rw [endingsAfter_cons, isOpener_append]
  rcases h with h | h <;> simp [h]

/-- An opener has the ending of the block that it opens. -/
theorem endingsAfter_cons_of_opens (hline : language.opening? line = some attributes)
    (h : latestOpens language (fencesRev (pre ++ [line])) = true) (rest : List Text) :
    endingsAfter language pre (line :: rest) =
      OpenBlock.ending ⟨pre.length + 1, attributes, []⟩ (pre.length + 1) rest ::
        endingsAfter language (pre ++ [line]) rest := by
  rw [endingsAfter_cons, isOpener_append, endingAt_append, Language.isFenceLine_of_opening? hline,
    h, hline]
  rfl

/-- What becomes of the block that is open, and of those that the openers that are left open. -/
theorem endings_eq_append (h : Tracks language pre state) (rest : List Text) :
    endings language rest pre.length state =
      (state.openBlock?.map fun block => block.ending pre.length rest).toList ++
        endingsAfter language pre rest := by
  -- by induction on the lines that are left; the invariant passes each of them on to `pre`
  induction rest generalizing pre state with
  | nil =>
    rw [endings_nil]
    rcases state.openBlock? with _ | block
    · rfl
    · simp [OpenBlock.ending, bodyOf, endingsAfter]
  | cons line rest ih =>
    have hrest := ih (h.step (pre.length + 1) line)
    rw [List.length_append, List.length_singleton] at hrest
    rw [endings_cons, hrest]
    rcases ho : state.openBlock? with _ | block
    · have hlatest := latestOpens_of_outside h ho line
      rcases hline : language.opening? line with _ | attributes
      · rw [hline] at hlatest
        rw [State.step_prose ho hline, endingsAfter_cons_of_not_opens (Or.inl hlatest), ho]
        rfl
      · rw [hline] at hlatest
        rw [State.step_opening ho hline, endingsAfter_cons_of_opens hline hlatest]
        rfl
    · have hlatest := latestOpens_of_inside h ho line
      by_cases hline : isFenceLine line = true
      · rw [hline] at hlatest
        rw [endingsAfter_cons_of_not_opens (Or.inl hlatest)]
        by_cases hfence : line = fence
        · subst hfence
          rw [State.step_closing ho, Option.map_some, ending_cons_of_fence]
          rfl
        · rw [State.step_nested ho hline hfence, Option.map_some,
            ending_cons_of_nested hline hfence]
          rfl
      · rw [Bool.not_eq_true] at hline
        rw [endingsAfter_cons_of_not_opens (Or.inr hline), State.step_body ho hline,
          State.openBlock?_push ho, Option.map_some, Option.map_some, ending_cons_of_body hline]
        rfl

end

section

variable (language : Language) (lines : List Text)

/-- The indices of the openers, in ascending order. -/
def openers : List Nat :=
  (List.range lines.length).filter (isOpener language lines)

/-- A scan comes to one ending for each opener. -/
theorem endings_eq :
    endings language lines 0 .initial =
      (openers language lines).map (endingAt language lines) := by
  rw [openers, List.range_eq_range']
  exact endings_eq_append (tracks_initial language) lines

/-- The next fence line decides what becomes of a block. -/
theorem endingAt_cases (index : Nat) :
    (nextFence? lines (index + 1) = none ∧
      endingAt language lines index = .unclosed (blockAt language lines index)) ∨
    ∃ number, nextFence? lines (index + 1) = some number ∧
      ((lines[number - 1]? = some fence ∧
        endingAt language lines index = .closed (blockAt language lines index) number) ∨
      (lines[number - 1]? ≠ some fence ∧
        endingAt language lines index = .dropped (index + 1) number)) := by
  rw [endingAt, OpenBlock.ending, nextFence?]
  rcases (lines.drop (index + 1)).findIdx? isFenceLine with _ | j
  · exact Or.inl ⟨rfl, rfl⟩
  · refine Or.inr ⟨index + 1 + j + 1, rfl, ?_⟩
    have hline : (lines.drop (index + 1))[j]? = lines[index + 1 + j + 1 - 1]? :=
      List.getElem?_drop
    -- the line is counted from the place of the opener, and from the start of the document
    by_cases hfence : lines[index + 1 + j + 1 - 1]? = some fence
    · exact Or.inl ⟨hfence, if_pos (hline.trans hfence)⟩
    · exact Or.inr ⟨hfence, if_neg fun h => hfence (hline.symm.trans h)⟩

/-- The ending of an opener starts at its line. -/
theorem start_endingAt (index : Nat) : (endingAt language lines index).start = index + 1 := by
  rcases endingAt_cases language lines index with ⟨-, h⟩ | ⟨number, -, ⟨-, h⟩ | ⟨-, h⟩⟩ <;>
    · rw [h]
      rfl

end

section

variable {language : Language} {lines : List Text} {ending : Ending}

/-- The endings are in the order of the document. -/
theorem pairwise_start_endings (language : Language) (lines : List Text) :
    (endings language lines 0 .initial).Pairwise fun e f => e.start < f.start := by
  rw [endings_eq, List.pairwise_map]
  refine (List.pairwise_lt_range.filter _).imp fun {i j} hij => ?_
  rw [start_endingAt, start_endingAt]
  omega

/-- What an ending says is so: the fence line that it names is the next one after the block's start,
and bare exactly if it closes the block. -/
def Ending.Holds (lines : List Text) : Ending → Prop
  | closed block line =>
    nextFence? lines block.startLine = some line ∧ lines[line - 1]? = some fence
  | dropped start line => nextFence? lines start = some line ∧ lines[line - 1]? ≠ some fence
  | unclosed block => nextFence? lines block.startLine = none

/-- Each ending of a scan is what it says: the fence line that it names is the next one after its
start. -/
theorem holds_of_mem_endings (h : ending ∈ endings language lines 0 .initial) :
    ending.Holds lines := by
  rw [endings_eq] at h
  obtain ⟨index, -, rfl⟩ := List.mem_map.mp h
  rcases endingAt_cases language lines index with
    ⟨hnone, h⟩ | ⟨number, hnumber, ⟨hfence, h⟩ | ⟨hfence, h⟩⟩ <;> rw [h]
  · exact hnone
  · exact ⟨hnumber, hfence⟩
  · exact ⟨hnumber, hfence⟩

end

end FencedCode.Scan
