import FencedCode.Proofs.Scan.Accounting

/-!
# Endings under other line numbers

The endings of blocks name lines, and lines get other numbers when others come before them. The
endings of lines that follow others are those of the earlier lines (`ended`) and those that a scan
comes to from there (`endings_append`). From outside all blocks the latter are the endings of the
further lines alone with all numbers raised (`endings_outside`); from inside a block they are the
ending of that block and then the endings of the lines after the next fence line (`endings_inside`).
-/
namespace FencedCode

/-- The block with the number of its line changed. -/
def Block.renumber (f : Nat → Nat) (block : Block) : Block :=
  { block with startLine := f block.startLine }

namespace Scan

/-- The remark with the numbers of its lines changed. -/
def Record.renumber (f : Nat → Nat) : Record → Record
  | dropped language start nested => .dropped language (f start) (f nested)
  | unclosed language start => .unclosed language (f start)

namespace Ending

/-- The ending with the numbers of its lines changed. -/
def renumber (f : Nat → Nat) : Ending → Ending
  | closed block line => .closed (block.renumber f) (f line)
  | dropped start line => .dropped (f start) (f line)
  | unclosed block => .unclosed (block.renumber f)

/-- The numbers of the lines that an ending names. -/
def numbers : Ending → List Nat
  | closed block line => [block.startLine, line]
  | dropped start line => [start, line]
  | unclosed block => [block.startLine]

section

variable {f g : Nat → Nat}

/-- A renumbered ending starts at the new number. -/
@[simp] theorem start_renumber (f : Nat → Nat) (ending : Ending) :
    (ending.renumber f).start = f ending.start := by
  cases ending <;> rfl

/-- Where an ending starts is one of the numbers that it names. -/
theorem start_mem_numbers (ending : Ending) : ending.start ∈ ending.numbers := by
  cases ending <;> exact List.mem_cons_self

/-- A renumbered ending gives the renumbered block. -/
@[simp] theorem block?_renumber (f : Nat → Nat) (ending : Ending) :
    (ending.renumber f).block? = ending.block?.map (Block.renumber f) := by
  cases ending <;> rfl

/-- A renumbered ending makes the renumbered remark. -/
@[simp] theorem record?_renumber (name : Text) (f : Nat → Nat) (ending : Ending) :
    (ending.renumber f).record? name = (ending.record? name).map (Record.renumber f) := by
  cases ending <;> rfl

/-- To renumber twice is to renumber by both functions, one after the other. -/
@[simp] theorem renumber_renumber (f g : Nat → Nat) (ending : Ending) :
    (ending.renumber f).renumber g = ending.renumber fun n => g (f n) := by
  cases ending <;> rfl

/-- Only the numbers that an ending names matter. -/
theorem renumber_congr {ending : Ending} (h : ∀ n ∈ ending.numbers, f n = g n) :
    ending.renumber f = ending.renumber g := by
  cases ending <;> simp_all [renumber, numbers, Block.renumber]

/-- Only the numbers that an ending names matter. -/
theorem renumber_eq_self {ending : Ending} (h : ∀ n ∈ ending.numbers, f n = n) :
    ending.renumber f = ending := by
  have hid : ending.renumber f = ending.renumber id := renumber_congr h
  rw [hid]
  cases ending <;> rfl

end

end Ending

/-! ## Endings of a scan -/

/-- The endings that lines come to, without that of a block that they leave open. -/
def ended (language : Language) : List Text → Nat → State → List Ending
  | [], _, _ => []
  | line :: lines, taken, state =>
    let (next, event) := state.step language (taken + 1) line
    (event.ending? (taken + 1)).toList ++ ended language lines (taken + 1) next

section

variable {language : Language} {lines : List Text} {state : State} {block : OpenBlock}

/-- A line comes to the ending of its step, if it has one, and then to those of the lines after it.
-/
theorem ended_cons (line : Text) (lines : List Text) (taken : Nat) (state : State) :
    ended language (line :: lines) taken state =
      ((state.step language (taken + 1) line).2.ending? (taken + 1)).toList ++
        ended language lines (taken + 1) (state.step language (taken + 1) line).1 :=
  rfl

/-- Further lines go on where the first ones stop. -/
theorem endings_append (lines more : List Text) (taken : Nat) (state : State) :
    endings language (lines ++ more) taken state =
      ended language lines taken state ++
        endings language more (taken + lines.length) (trace language lines taken state).state := by
  induction lines generalizing taken state with
  | nil => rfl
  | cons line lines ih =>
    rw [List.cons_append, endings_cons, ih, ended_cons, trace_cons, List.append_assoc,
      List.length_cons, Nat.add_assoc taken 1, Nat.add_comm 1]
    rfl

/-- All endings are those of blocks that lines end, and then that of the block that none does. -/
theorem endings_eq_ended_append (lines : List Text) (taken : Nat) (state : State) :
    endings language lines taken state =
      ended language lines taken state ++
        ((trace language lines taken state).state.openBlock?.map
          fun block => Ending.unclosed block.close).toList := by
  have h : endings language (lines ++ []) taken state = _ := endings_append lines [] taken state
  rwa [List.append_nil, endings_nil] at h

/-- The blocks and the remarks of a scan are those of its endings. -/
theorem scanLines_eq_filterMap (language : Language) (lines : List Text) :
    scanLines language lines =
      ((endings language lines 0 .initial).filterMap Ending.block?,
        (endings language lines 0 .initial).filterMap (Ending.record? language.name)) := by
  rw [scanLines_eq, blocks_trace_eq_filterMap, records_trace_eq_filterMap]

/-- Endings name lines that there are. -/
theorem numbers_of_mem_endings {ending : Ending}
    (h : ending ∈ endings language lines 0 .initial) :
    ∀ n ∈ ending.numbers, 0 < n ∧ n ≤ lines.length := by
  have hstart : 0 < ending.start ∧ ending.start ≤ lines.length := by
    rw [endings_eq] at h
    obtain ⟨index, hindex, rfl⟩ := List.mem_map.mp h
    have hlt : index < lines.length := List.mem_range.mp (List.mem_filter.mp hindex).1
    rw [start_endingAt]
    omega
  -- a fence line that is named is found in what is left after the start
  have hnext {start line : Nat} (hline : nextFence? lines start = some line) :
      0 < line ∧ line ≤ lines.length := by
    obtain ⟨index, hindex, rfl⟩ := nextFence?_eq_some_iff.mp hline
    have hlt : index < (lines.drop start).length :=
      (List.findIdx?_eq_some_iff_getElem.mp hindex).1
    rw [List.length_drop] at hlt
    omega
  have hholds := holds_of_mem_endings h
  intro n hn
  cases ending with
  | closed block line =>
    rcases List.mem_cons.mp hn with rfl | hn
    · exact hstart
    · rw [List.mem_singleton.mp hn]
      exact hnext hholds.1
  | dropped start line =>
    rcases List.mem_cons.mp hn with rfl | hn
    · exact hstart
    · rw [List.mem_singleton.mp hn]
      exact hnext hholds.1
  | unclosed block =>
    rw [List.mem_singleton.mp hn]
    exact hstart

/-! ## From outside and from inside -/

/-- States that agree up to a shift come to the same endings up to that shift. -/
theorem endings_shifted {k : Nat} {s t : State} (h : s.Shifted k t) (language : Language)
    (lines : List Text) (taken : Nat) :
    endings language lines (taken + k) t =
      (endings language lines taken s).map (Ending.renumber (· + k)) := by
  -- one step on either side: the same kind of event, and states that agree again
  induction lines generalizing taken s t with
  | nil =>
    rw [endings_nil, endings_nil, h]
    cases s.openBlock? <;> rfl
  | cons line lines ih =>
    obtain ⟨hstate, hevent⟩ := h.step language (taken + 1) line
    rw [endings_cons, endings_cons, List.map_append, ← ih hstate, Nat.add_right_comm taken k 1,
      hevent]
    cases (s.step language (taken + 1) line).2 <;> rfl

/-- Outside all blocks a scan comes to the endings of the lines that are left. -/
theorem endings_outside (h : state.openBlock? = none) (lines : List Text) (taken : Nat) :
    endings language lines taken state =
      (endings language lines 0 .initial).map (Ending.renumber (· + taken)) := by
  have hstate : State.initial.Shifted taken state := h
  have hshift := endings_shifted hstate language lines 0
  rwa [Nat.zero_add] at hshift

/-- The lines after the next fence line. -/
def pastFence (rest : List Text) : List Text :=
  rest.drop ((bodyOf rest).length + 1)

/-- Inside a block, that block ends at the next fence line, and then the scan starts anew. -/
theorem endings_inside (h : state.openBlock? = some block) (rest : List Text) (taken : Nat) :
    endings language rest taken state =
      block.ending taken rest ::
        (endings language (pastFence rest) 0 .initial).map
          (Ending.renumber (· + (taken + (bodyOf rest).length + 1))) := by
  -- by induction on the lines: each one before the next fence line goes into the block
  induction rest generalizing state block taken with
  | nil =>
    rw [endings_nil, h]
    simp [OpenBlock.ending, bodyOf, pastFence, endings_nil]
  | cons line rest ih =>
    rw [endings_cons, pastFence, bodyOf_cons]
    by_cases hline : isFenceLine line = true
    · rw [if_pos hline]
      by_cases hfence : line = fence
      · subst hfence
        rw [State.step_closing h, ending_cons_of_fence,
          endings_outside (State.openBlock?_close state)]
        rfl
      · rw [State.step_nested h hline hfence, ending_cons_of_nested hline hfence,
          endings_outside (State.openBlock?_discard state)]
        rfl
    · rw [if_neg hline]
      rw [Bool.not_eq_true] at hline
      have hnumber : taken + 1 + (bodyOf rest).length + 1 =
          taken + (line :: bodyOf rest).length + 1 := by
        rw [List.length_cons]
        omega
      rw [State.step_body h hline, ending_cons_of_body hline, ← hnumber]
      exact ih (State.openBlock?_push h line) (taken + 1)

end

end Scan

end FencedCode
