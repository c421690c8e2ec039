import FencedCode.Proofs.Scan.Trace

/-!
# Where a scan starts anew

A trace depends on nothing but the block that is open. Two states that agree there, up to a shift of
the line numbers, have the same trace up to that shift (`trace_shifted`), so outside all blocks a
scan goes on as if the lines were the first ones (`blocks_trace_outside`). Inside a block that holds
from the first fence line on, whatever becomes of the block (`blocks_trace_inside`).
-/
namespace FencedCode

/-! ## Shifted line numbers -/

/-- The block `k` lines further down. -/
def Block.shift (k : Nat) (block : Block) : Block :=
  { block with startLine := block.startLine + k }

@[simp] theorem Block.shift_zero (block : Block) : block.shift 0 = block :=
  rfl

namespace Scan

/-- The open block `k` lines further down. -/
def OpenBlock.shift (k : Nat) (block : OpenBlock) : OpenBlock :=
  { block with start := block.start + k }

/-- The remark, both its lines `k` lines further down. -/
def Record.shift (k : Nat) : Record → Record
  | dropped language start nested => .dropped language (start + k) (nested + k)
  | unclosed language start => .unclosed language (start + k)

/-- The event `k` lines further down. -/
def Event.shift (k : Nat) : Event → Event
  | quiet => .quiet
  | emitted block => .emitted (block.shift k)
  | dropped start => .dropped (start + k)

/-- Two states with the same block open, in the second one `k` lines further down. What is left of
blocks that are over may differ. -/
def State.Shifted (k : Nat) (s t : State) : Prop :=
  t.openBlock? = s.openBlock?.map (OpenBlock.shift k)

/-- Two traces that are the same but for `k` lines. -/
structure Trace.Shifted (k : Nat) (t u : Trace) : Prop where
  closed : u.closed = t.closed.map (Block.shift k)
  dropped : u.dropped = t.dropped.map (Record.shift k)
  state : t.state.Shifted k u.state

/-- States that agree up to a shift do so after one more line, which brings about the same. -/
theorem State.Shifted.step {k : Nat} {s t : State} (h : s.Shifted k t) (language : Language)
    (number : Nat) (line : Text) :
    (s.step language number line).1.Shifted k (t.step language (number + k) line).1 ∧
      (t.step language (number + k) line).2 = (s.step language number line).2.shift k := by
  -- what is open decides the step, and both states have the same open
  rcases hs : s.openBlock? with _ | block
  · have ht : t.openBlock? = none := by rw [h, hs]; rfl
    rcases hline : language.opening? line with _ | attributes
    · rw [step_prose hs hline, step_prose ht hline]
      exact ⟨h, rfl⟩
    · rw [step_opening hs hline, step_opening ht hline]
      exact ⟨rfl, rfl⟩
  · have ht : t.openBlock? = some (block.shift k) := by rw [h, hs]; rfl
    by_cases hfence : isFenceLine line = true
    · by_cases hline : line = fence
      · subst hline
        rw [step_closing hs, step_closing ht]
        exact ⟨rfl, rfl⟩
      · rw [step_nested hs hfence hline, step_nested ht hfence hline]
        exact ⟨rfl, rfl⟩
    · rw [Bool.not_eq_true] at hfence
      rw [step_body hs hfence, step_body ht hfence]
      refine ⟨?_, rfl⟩
      rw [Shifted, openBlock?_push hs, openBlock?_push ht]
      rfl

/-- States that agree up to a shift bring about the same with the same lines, up to that shift. -/
theorem trace_shifted {k : Nat} {s t : State} (h : s.Shifted k t) (language : Language)
    (lines : List Text) (taken : Nat) :
    (trace language lines taken s).Shifted k (trace language lines (taken + k) t) := by
  induction lines generalizing taken s t with
  | nil => exact ⟨rfl, rfl, h⟩
  | cons line lines ih =>
    obtain ⟨hstate, hevent⟩ := h.step language (taken + 1) line
    have hrest := ih hstate (taken + 1)
    rw [trace_cons, trace_cons, Nat.add_right_comm taken k 1, hevent]
    refine ⟨?_, ?_, hrest.state⟩
    · simp only [Trace.after, List.map_append, hrest.closed]
      cases (s.step language (taken + 1) line).2 <;> rfl
    · simp only [Trace.after, List.map_append, hrest.dropped]
      cases (s.step language (taken + 1) line).2 <;> rfl

/-- The block left open counts among the shifted ones too. -/
theorem Trace.Shifted.blocks {k : Nat} {t u : Trace} (h : t.Shifted k u) :
    u.blocks = t.blocks.map (Block.shift k) := by
  rw [Trace.blocks, Trace.blocks, List.map_append, h.closed, h.state]
  cases t.state.openBlock? <;> rfl

/-- Outside all blocks a scan goes on as if the lines were the first ones. -/
theorem blocks_trace_outside {language : Language} {state : State} (h : state.openBlock? = none)
    (lines : List Text) (taken : Nat) :
    (trace language lines taken state).blocks =
      (scanLines language lines).1.map (Block.shift taken) := by
  have hstate : State.initial.Shifted taken state := h
  have hshift := (trace_shifted hstate language lines 0).blocks
  rw [Nat.zero_add] at hshift
  rw [hshift, scanLines_eq]

/-! ## From inside a block -/

section

variable {language : Language} {state : State} {block : OpenBlock} {lines : List Text}

/-- Inside a block, the lines up to the first fence line belong to it. That line ends it, and the
block is complete if the line is bare. -/
theorem blocks_trace_body_append (h : state.openBlock? = some block) {body : List Text}
    (hbody : ∀ line ∈ body, isFenceLine line = false) {line : Text}
    (hline : isFenceLine line = true) (rest : List Text) (taken : Nat) :
    (trace language (body ++ line :: rest) taken state).blocks =
      (if line = fence then [(block.append body).close] else []) ++
        (scanLines language rest).1.map (Block.shift (taken + body.length + 1)) := by
  obtain ⟨last, htrace, hlast⟩ := trace_body language h hbody taken
  rw [trace_append, Trace.blocks_followedBy, htrace, trace_cons, Trace.blocks_after]
  by_cases hfence : line = fence
  · subst hfence
    rw [State.step_closing hlast, blocks_trace_outside (State.openBlock?_close last), if_pos rfl]
    rfl
  · rw [State.step_nested hlast hline hfence, blocks_trace_outside (State.openBlock?_discard last),
      if_neg hfence]
    rfl

/-- The first fence line cuts lines in two. -/
theorem exists_eq_append_of_findIdx? {j : Nat} (h : lines.findIdx? isFenceLine = some j) :
    ∃ body line rest, lines = body ++ line :: rest ∧ body.length = j ∧
      (∀ line ∈ body, isFenceLine line = false) ∧ isFenceLine line = true := by
  obtain ⟨hlt, hline, hbefore⟩ := List.findIdx?_eq_some_iff_getElem.mp h
  refine ⟨lines.take j, lines[j], lines.drop (j + 1), ?_, ?_, ?_, hline⟩
  · rw [← List.drop_eq_getElem_cons hlt, List.take_append_drop]
  · rw [List.length_take_of_le (Nat.le_of_lt hlt)]
  · intro line hmem
    obtain ⟨k, hk, rfl⟩ := List.mem_take_iff_getElem.mp hmem
    exact Bool.eq_false_iff.mpr (hbefore k (by omega))

/-- Without a fence line all lines belong to the open block. -/
theorem blocks_trace_inside_of_none (h : state.openBlock? = some block)
    (hlines : lines.findIdx? isFenceLine = none) (taken : Nat) :
    (trace language lines taken state).blocks = [(block.append lines).close] := by
  obtain ⟨last, htrace, hlast⟩ := trace_body language h (List.findIdx?_eq_none_iff.mp hlines) taken
  rw [htrace, Trace.blocks, hlast]
  rfl

/-- The first fence line ends the open block, which is complete if that line is bare. After it the
scan starts anew. -/
theorem blocks_trace_inside (h : state.openBlock? = some block) {j : Nat}
    (hj : lines.findIdx? isFenceLine = some j) (taken : Nat) :
    (trace language lines taken state).blocks =
      (if lines[j]? = some fence then [(block.append (lines.take j)).close] else []) ++
        (scanLines language (lines.drop (j + 1))).1.map (Block.shift (taken + j + 1)) := by
  obtain ⟨body, line, rest, rfl, rfl, hbody, hline⟩ := exists_eq_append_of_findIdx? hj
  rw [blocks_trace_body_append h hbody hline, List.take_left, List.drop_length_add_append,
    List.getElem?_append_right (Nat.le_refl _), Nat.sub_self]
  simp

end

end Scan

end FencedCode
