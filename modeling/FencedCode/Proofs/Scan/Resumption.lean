import FencedCode.Proofs.Scan.Calls
import FencedCode.Proofs.Scan.Restart

/-!
# Scanners that go on after a block

A scanner that has given a block which a fence closes stands outside all blocks, but its state still
holds the lines and the attributes of that block, or whatever was there before. None of it comes to
light again: from there on the scanner gives what a new one gives over the lines that are left, with
all line numbers shifted by the lines that are gone (`resumes_of_closed`).

## Shape of the proof

`Resumes` relates a scanner to one that started afresh. Of their states it asks only that the same
block be open in both, up to the shift, so that what is left over may differ. A call keeps the
relation and gives the same block (`Resumes.next`), and then so does any number of calls.
-/
namespace FencedCode.Scanner

open Scan

/-! ## Two scanners in step -/

/-- `resumed` has come to where `fresh` is, `shift` lines further down, and has made the remarks
`earlier` on these lines. What is left in its state of blocks that are over may be anything. -/
structure Resumes (shift : Nat) (earlier : List Record) (fresh resumed : Scanner) : Prop where
  language : resumed.language = fresh.language
  items : resumed.items = fresh.items
  taken : resumed.taken = fresh.taken + shift
  state : fresh.state.Shifted shift resumed.state
  exhausted : resumed.exhausted = fresh.exhausted
  records : resumed.records = earlier ++ fresh.records.map (Record.shift shift)

/-- Calls that give the same block and leave the scanners in step. -/
structure SameAnswer (shift : Nat) (earlier : List Record)
    (fresh resumed : Option Block × Scanner) : Prop where
  block : resumed.1 = fresh.1.map (Block.shift shift)
  resumes : Resumes shift earlier fresh.2 resumed.2

section

variable {shift : Nat} {earlier : List Record} {fresh resumed scanner : Scanner}

/-- At the end outside of all blocks there is nothing to give. -/
theorem finish_of_outside (h : scanner.state.openBlock? = none) :
    scanner.finish = (none, { scanner with exhausted := true }) := by
  rw [finish, State.mode_of_openBlock?_none h]

/-- At the end inside a block this is given, with a remark that it is unclosed. -/
theorem finish_of_inside {block : OpenBlock} (h : scanner.state.openBlock? = some block) :
    scanner.finish = (some block.close,
      { scanner with
        state := scanner.state.close
        exhausted := true
        records := scanner.records ++ [.unclosed scanner.language.name block.start] }) := by
  obtain ⟨hmode, rfl⟩ := State.mode_of_openBlock?_some h
  rw [finish, hmode]
  rfl

/-- The end completes the same block for both. -/
theorem Resumes.finish (h : Resumes shift earlier fresh resumed) :
    SameAnswer shift earlier fresh.finish resumed.finish := by
  have hstate := h.state
  rw [State.Shifted] at hstate
  rcases hopen : fresh.state.openBlock? with _ | block <;> rw [hopen] at hstate
  · rw [finish_of_outside hopen, finish_of_outside hstate]
    exact ⟨rfl, h.language, h.items, h.taken, h.state, rfl, h.records⟩
  · rw [finish_of_inside hopen, finish_of_inside hstate]
    refine ⟨rfl, h.language, h.items, h.taken, rfl, rfl, ?_⟩
    simp only [h.records, h.language, List.map_append, List.append_assoc]
    rfl

/-- Both take the same items up to the end of the next block. -/
theorem sameAnswer_advance (language : Language) (items : List (Option Text)) (taken : Nat)
    {s t : State} (h : s.Shifted shift t) (records : List Record) :
    SameAnswer shift earlier (advance language items taken s records)
      (advance language items (taken + shift) t (earlier ++ records.map (Record.shift shift))) := by
  -- by induction on the items; a line that ends no block leaves the states in step
  induction items generalizing taken s t records with
  | nil => exact Resumes.finish ⟨rfl, rfl, rfl, h, rfl, rfl⟩
  | cons item items ih =>
    cases item with
    | none => exact Resumes.finish ⟨rfl, rfl, Nat.add_right_comm taken shift 1, h, rfl, rfl⟩
    | some line =>
      obtain ⟨hstate, hevent⟩ := h.step language (taken + 1) line
      rw [advance, advance, Nat.add_right_comm taken shift 1]
      rcases hs : s.step language (taken + 1) line with ⟨next, _ | block | start⟩ <;>
        rcases ht : t.step language (taken + 1 + shift) line with ⟨next', event⟩ <;>
        rw [hs, ht] at hstate hevent <;> subst hevent
      · exact ih (taken + 1) hstate records
      · exact ⟨rfl, rfl, rfl, rfl, hstate, rfl, rfl⟩
      · have hrest := ih (taken + 1) hstate (records ++ [.dropped language.name start (taken + 1)])
        rw [List.map_append, ← List.append_assoc] at hrest
        exact hrest

/-- **One call.** Scanners in step give the same block and stay in step. -/
theorem Resumes.next (h : Resumes shift earlier fresh resumed) :
    SameAnswer shift earlier fresh.next resumed.next := by
  have hexhausted := h.exhausted
  rw [Scanner.next, Scanner.next]
  by_cases hend : fresh.exhausted = true
  · rw [if_pos hend, if_pos (hexhausted.trans hend)]
    exact ⟨by rfl, h⟩
  · rw [if_neg hend, if_neg (by rwa [hexhausted]), h.language, h.items, h.taken, h.records]
    exact sameAnswer_advance fresh.language fresh.items fresh.taken h.state fresh.records

/-- By induction on the calls, a resumed scan stays in step with a fresh one. -/
theorem Resumes.after (h : Resumes shift earlier fresh resumed) (calls : Nat) :
    Resumes shift earlier (fresh.after calls) (resumed.after calls) := by
  induction calls with
  | zero => exact h
  | succ calls ih => exact ih.next.resumes

end

/-! ## After a call -/

section

variable {language : Language} {lines : List Text}

/-- The state after a line that completes a block is outside all blocks. -/
theorem openBlock?_of_emitted {state next : State} {number : Nat} {line : Text} {block : Block}
    (h : state.step language number line = (next, .emitted block)) : next.openBlock? = none := by
  -- only the bare fence in an open block completes one
  rcases hopen : state.openBlock? with _ | opened
  · rcases hline : language.opening? line with _ | attributes
    · rw [State.step_prose hopen hline] at h
      cases h
    · rw [State.step_opening hopen hline] at h
      cases h
  · by_cases hfence : isFenceLine line = true
    · by_cases hline : line = fence
      · rw [hline, State.step_closing hopen] at h
        rw [← (Prod.mk.inj h).1, State.openBlock?_close]
      · rw [State.step_nested hopen hfence hline] at h
        cases h
    · rw [State.step_body hopen (Bool.not_eq_true _ ▸ hfence)] at h
      cases h

/-- A scanner for a language that stands outside all blocks. -/
structure AtRest (language : Language) (scanner : Scanner) : Prop where
  language : scanner.language = language
  outside : scanner.state.openBlock? = none

/-- A scanner is at rest after its end. -/
theorem atRest_finish {scanner : Scanner} (h : scanner.language = language) :
    AtRest language scanner.finish.2 := by
  rcases hopen : scanner.state.openBlock? with _ | block
  · rw [finish_of_outside hopen]
    exact ⟨h, hopen⟩
  · rw [finish_of_inside hopen]
    exact ⟨h, State.openBlock?_close _⟩

/-- Wherever the search for a block starts, it ends outside all blocks. -/
theorem atRest_advance (language : Language) (items : List (Option Text)) (taken : Nat)
    (state : State) (records : List Record) :
    AtRest language (advance language items taken state records).2 := by
  fun_induction advance language items taken state records with
  | case1 => exact atRest_finish rfl
  | case2 => exact atRest_finish rfl
  | case3 _ _ _ _ _ _ _ ih => exact ih
  | case4 _ _ _ _ _ _ _ hstep => exact ⟨rfl, openBlock?_of_emitted hstep⟩
  | case5 _ _ _ _ _ _ _ _ ih => exact ih

/-- It stays at rest whatever is called. -/
theorem AtRest.next {scanner : Scanner} (h : AtRest language scanner) :
    AtRest language scanner.next.2 := by
  rw [Scanner.next]
  split
  · exact h
  · rw [h.language]
    exact atRest_advance ..

/-- A scanner stands outside all blocks between calls. -/
theorem atRest_after (language : Language) (items : List (Option Text)) (calls : Nat) :
    AtRest language ((ofItems language items).after calls) := by
  induction calls with
  | zero => exact ⟨rfl, rfl⟩
  | succ calls ih => exact ih.next

/-- What is pending where there are no lines is closed by no fence. -/
theorem isNone_closing_nil (language : Language) (taken : Nat) (state : State) :
    (((endings language [] taken state).filterMap Ending.given?).head?.bind Prod.snd).isNone =
      true := by
  rw [endings_nil]
  cases state.openBlock? <;> rfl

/-- A call meets the end unless a fence closes the block that it gives. -/
theorem exhausted_advance (language : Language) (items : List (Option Text)) (taken : Nat)
    (state : State) (records : List Record) :
    (advance language items taken state records).2.exhausted =
      ((pending ⟨language, items, taken, state, false, records⟩).head?.bind Prod.snd).isNone := by
  -- by induction on the items: a line that closes no block changes nothing of what is pending
  induction items generalizing taken state records with
  | nil => exact (exhausted_finish _).trans (isNone_closing_nil language taken state).symm
  | cons item items ih =>
    cases item with
    | none => exact (exhausted_finish _).trans (isNone_closing_nil language taken state).symm
    | some line =>
      rw [advance]
      rcases hstep : state.step language (taken + 1) line with ⟨next, _ | block | start⟩
      · rw [pending_line hstep records]
        exact ih (taken + 1) next records
      · rw [pending_line hstep records]
        rfl
      · rw [pending_line hstep]
        exact ih (taken + 1) next _

/-- A call ends the scan unless a line ends the block that it gives. -/
theorem exhausted_next (scanner : Scanner) :
    scanner.next.2.exhausted = (scanner.pending.head?.bind Prod.snd).isNone := by
  obtain ⟨language, items, taken, state, exhausted, records⟩ := scanner
  cases exhausted with
  | true => rfl
  | false => exact exhausted_advance language items taken state records

end

/-! ## Closed blocks -/

/-- The next fence line after the start of the block closes it. -/
def ClosedIn (lines : List Text) (block : Block) : Prop :=
  ∃ number, nextFence? lines block.startLine = some number ∧ lines[number - 1]? = some fence

/-- Items without a gap hold all lines before the first gap. -/
theorem linesBefore_map_some (lines : List Text) : linesBefore (lines.map some) = lines := by
  induction lines with
  | nil => rfl
  | cons line lines ih => rw [List.map_cons, linesBefore, ih]

section

variable {language : Language} {lines : List Text}

/-- Over lines, all blocks are pending, each with the fence line that closes it. -/
theorem pending_ofLines (language : Language) (lines : List Text) :
    (ofLines language lines).pending = (scanLines language lines).1.map
      fun block => (block, nextFence? lines block.startLine) := by
  rw [ofLines, pending_ofItems, linesBefore_map_some]

/-- So the calls give the blocks one after the other. -/
theorem next_after_ofLines (language : Language) (lines : List Text) (calls : Nat) :
    ((ofLines language lines).after calls).next.1 = (scanLines language lines).1[calls]? := by
  rw [next_after, pending_ofLines, List.getElem?_map, Option.map_map]
  exact Option.map_id'

/-- After a block the end has been met if there is no fence line to close the block. -/
theorem exhausted_after_succ {call : Nat} {block : Block}
    (h : (scanLines language lines).1[call]? = some block) :
    ((ofLines language lines).after (call + 1)).exhausted =
      (nextFence? lines block.startLine).isNone := by
  rw [after, exhausted_next, pending_after, List.head?_drop, pending_ofLines, List.getElem?_map, h]
  rfl

/-- A call that gives a closed block does not end the scan. -/
theorem exhausted_after_succ_of_closed {call : Nat} {block : Block}
    (hblock : ((ofLines language lines).after call).next.1 = some block)
    (hclosed : ClosedIn lines block) :
    ((ofLines language lines).after (call + 1)).exhausted = false := by
  obtain ⟨number, hnumber, -⟩ := hclosed
  rw [next_after_ofLines] at hblock
  rw [exhausted_after_succ hblock, hnumber]
  rfl

/-- Nor do any calls that all give closed blocks. -/
theorem exhausted_after_of_closed {calls : Nat}
    (h : ∀ call < calls, ∃ block,
      ((ofLines language lines).after call).next.1 = some block ∧ ClosedIn lines block) :
    ((ofLines language lines).after calls).exhausted = false := by
  cases calls with
  | zero => rfl
  | succ calls =>
    obtain ⟨block, hblock, hclosed⟩ := h calls (Nat.lt_succ_self calls)
    exact exhausted_after_succ_of_closed hblock hclosed

/-- The items that are left are the lines that have not been taken. -/
theorem items_after_ofLines (language : Language) (lines : List Text) (calls : Nat) :
    ((ofLines language lines).after calls).items =
      (lines.drop ((ofLines language lines).after calls).taken).map some := by
  obtain ⟨count, htaken, hitems⟩ := items_after (ofLines language lines) calls
  have hcount : ((ofLines language lines).after calls).taken = count :=
    htaken.trans (Nat.zero_add count)
  rw [hitems, hcount, List.map_drop]
  rfl

/-- A scanner that has not met the end is in step with a new one over the lines that are left,
whatever its state holds of blocks that are over. -/
theorem resumes_after {calls : Nat}
    (hexhausted : ((ofLines language lines).after calls).exhausted = false) {leftover : State}
    (hleftover : leftover.mode = .outside) :
    let scanner := (ofLines language lines).after calls
    Resumes scanner.taken scanner.records (ofLines language (lines.drop scanner.taken))
      { scanner with state := leftover } := by
  intro scanner
  refine ⟨(atRest_after _ _ calls).language, items_after_ofLines language lines calls,
    (Nat.zero_add _).symm, ?_, hexhausted, (List.append_nil _).symm⟩
  show leftover.openBlock? = none
  rw [State.openBlock?, hleftover]

end

/-- **A scanner starts anew after each block.** If a fence closed each of the blocks that the first
calls gave, the scanner stands outside all blocks. Whatever else its state then holds, its own
leftovers or others, each further call gives what a new scanner over the lines that are left gives,
the block and the remarks shifted by the lines that are gone. -/
theorem resumes_of_closed (language : Language) (lines : List Text) (calls : Nat)
    (h : ∀ call < calls, ∃ block,
      ((ofLines language lines).after call).next.1 = some block ∧ ClosedIn lines block) :
    let scanner := (ofLines language lines).after calls
    let left := lines.drop scanner.taken
    scanner.state.mode = .outside ∧ scanner.items = left.map some ∧
    ∀ leftover : State, leftover.mode = .outside → ∀ further,
      let resumed := after { scanner with state := leftover } further
      let fresh := (ofLines language left).after further
      resumed.next.1 = fresh.next.1.map (Block.shift scanner.taken) ∧
      resumed.records = scanner.records ++ fresh.records.map (Record.shift scanner.taken) ∧
      resumed.taken = fresh.taken + scanner.taken := by
  intro scanner left
  refine ⟨State.mode_of_openBlock?_none (atRest_after language _ calls).outside,
    items_after_ofLines language lines calls, fun leftover hleftover further => ?_⟩
  have hresumes := (resumes_after (exhausted_after_of_closed h) hleftover).after further
  exact ⟨hresumes.next.block, hresumes.records, hresumes.taken⟩

/-- After a block is closed, another is dropped and a third is left open. In the place of the lines
and the attributes of the first block the scanner may hold anything. -/
theorem resumes_of_closed_leftover :
    let language := Language.ofName ['c']
    let lines := [fence ++ ['c', ',', 'a'], ['x'], fence, fence ++ ['c'], fence ++ ['p'],
      fence ++ ['c'], ['y']]
    let scanner := (ofLines language lines).after 1
    let resumed : Scanner := { scanner with state := ⟨.outside, 7, [['z']], ['b']⟩ }
    ((ofLines language lines).next.1 = some ⟨1, ['a'], ['x']⟩ ∧ scanner.state.mode = .outside ∧
      scanner.state.linesRev = [['x']] ∧ scanner.taken = 3) ∧
    resumed.next.1 = some ⟨6, [], ['y']⟩ ∧
    (resumed.after 1).records = [.dropped ['c'] 4 5, .unclosed ['c'] 6] ∧
    (resumed.after 1).taken = 7 := by
  intro language lines scanner resumed
  have hclosed : ∀ call < 1, ∃ block,
      ((ofLines language lines).after call).next.1 = some block ∧ ClosedIn lines block := by
    intro call hcall
    obtain rfl : call = 0 := by omega
    exact ⟨⟨1, ['a'], ['x']⟩, by decide, 3, by decide, by decide⟩
  obtain ⟨houtside, -, hfurther⟩ := resumes_of_closed language lines 1 hclosed
  obtain ⟨hblock, -, -⟩ := hfurther ⟨.outside, 7, [['z']], ['b']⟩ rfl 0
  obtain ⟨-, hrecords, htaken⟩ := hfurther ⟨.outside, 7, [['z']], ['b']⟩ rfl 1
  refine ⟨⟨by decide, houtside, by decide, by decide⟩, hblock.trans ?_, hrecords.trans ?_,
    htaken.trans ?_⟩
  · decide
  · decide
  · decide

end FencedCode.Scanner
