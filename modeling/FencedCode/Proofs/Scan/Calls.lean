import FencedCode.Proofs.Scan.Endings
import Mathlib.Data.List.Basic

/-!
# Scanners call by call

A scanner is asked for one block after the other, over items that may hold gaps. What it has still
to give is `Scanner.pending`, each block with the line of the fence that closes it, and how many
items it will have taken in the end is `Scanner.limit`. A call gives the first of the pending
blocks, stops at the fence that closes it, or at the limit where no fence does, and leaves the
others and the limit as they were (`Scanner.next_call`). So after any number of calls it is known
what the next one gives and how far the scanner has read (`Scanner.next_after_ofItems`).
-/
namespace FencedCode

open Scan

/-! ## Items -/

/-- The lines before the first gap. -/
def linesBefore : List (Option Text) → List Text
  | some line :: items => line :: linesBefore items
  | none :: _ => []
  | [] => []

/-- How many items there are to be taken: those up to the first gap and the gap itself, or all. -/
def reach (items : List (Option Text)) : Nat :=
  (items.findIdx? Option.isNone).elim items.length (· + 1)

/-- A line in front is one more line before the first gap. -/
theorem reach_line (line : Text) (items : List (Option Text)) :
    reach (some line :: items) = reach items + 1 := by
  rw [reach, reach, List.findIdx?_cons]
  cases items.findIdx? Option.isNone <;> rfl

/-- The block of an ending, if it is given, and the line of the fence that closes it, if one does.
-/
def Scan.Ending.given? : Ending → Option (Block × Option Nat)
  | closed block line => some (block, some line)
  | dropped .. => none
  | unclosed block => some (block, none)

namespace Scanner

/-- What a scanner has still to give. -/
def pending (scanner : Scanner) : List (Block × Option Nat) :=
  if scanner.exhausted then []
  else
    (endings scanner.language (linesBefore scanner.items) scanner.taken scanner.state).filterMap
      Ending.given?

/-- How many items a scanner will have taken when it meets the end. -/
def limit (scanner : Scanner) : Nat :=
  if scanner.exhausted then scanner.taken else scanner.taken + reach scanner.items

/-! ## One call -/

/-- What a call gives and what the scanner is after it. -/
structure Call (before : Scanner) (given : Option Block) (after : Scanner) : Prop where
  /-- the first pending block is given -/
  given : given = before.pending.head?.map Prod.fst
  /-- the others stay -/
  pending : after.pending = before.pending.tail
  /-- nothing is taken after the fence that closes the block, and all there is without one -/
  taken : after.taken = (before.pending.head?.bind Prod.snd).getD before.limit
  limit : after.limit = before.limit
  /-- what is taken is taken off the items -/
  items : ∃ count, after.taken = before.taken + count ∧ after.items = before.items.drop count

/-- A call that goes on after a line is one that starts there. -/
theorem Call.of_line {before middle after : Scanner} {given : Option Block} {line : Text}
    (h : middle.Call given after) (hpending : before.pending = middle.pending)
    (hlimit : before.limit = middle.limit) (htaken : middle.taken = before.taken + 1)
    (hitems : before.items = some line :: middle.items) : before.Call given after := by
  refine ⟨?_, ?_, ?_, h.limit.trans hlimit.symm, ?_⟩
  · rw [hpending]
    exact h.given
  · rw [hpending]
    exact h.pending
  · rw [hpending, hlimit]
    exact h.taken
  · obtain ⟨count, htook, hleft⟩ := h.items
    refine ⟨count + 1, by omega, ?_⟩
    rw [hitems, List.drop_succ_cons, hleft]

section

variable {language : Language} {items : List (Option Text)} {taken : Nat} {state : State}
  {records : List Record}

/-- At the end the block that is open is given. -/
theorem finish_call_nil (language : Language) (taken : Nat) (state : State)
    (records : List Record) :
    Call ⟨language, [], taken, state, false, records⟩
      (finish ⟨language, [], taken, state, false, records⟩).1
      (finish ⟨language, [], taken, state, false, records⟩).2 := by
  obtain ⟨mode, start, linesRev, attributes⟩ := state
  cases mode with
  | outside => exact ⟨rfl, rfl, rfl, rfl, 0, rfl, rfl⟩
  | inside => exact ⟨rfl, rfl, rfl, rfl, 0, rfl, rfl⟩

/-- A gap is the end. -/
theorem finish_call_gap (language : Language) (items : List (Option Text)) (taken : Nat)
    (state : State) (records : List Record) :
    Call ⟨language, none :: items, taken, state, false, records⟩
      (finish ⟨language, items, taken + 1, state, false, records⟩).1
      (finish ⟨language, items, taken + 1, state, false, records⟩).2 := by
  obtain ⟨mode, start, linesRev, attributes⟩ := state
  cases mode with
  | outside => exact ⟨rfl, rfl, rfl, rfl, 1, rfl, rfl⟩
  | inside => exact ⟨rfl, rfl, rfl, rfl, 1, rfl, rfl⟩

/-- To take a line does not move the place where the scan has to stop. -/
theorem limit_line (line : Text) (next : State) (more : List Record) :
    limit ⟨language, some line :: items, taken, state, false, records⟩ =
      limit ⟨language, items, taken + 1, next, false, more⟩ := by
  show taken + reach (some line :: items) = taken + 1 + reach items
  rw [reach_line]
  omega

/-- What is pending before a line is the block that it closes, if it closes one, and what is pending
after it. -/
theorem pending_line {line : Text} {next : State} {event : Event}
    (h : state.step language (taken + 1) line = (next, event)) (more : List Record) :
    pending ⟨language, some line :: items, taken, state, false, records⟩ =
      ((event.ending? (taken + 1)).bind Ending.given?).toList ++
        pending ⟨language, items, taken + 1, next, false, more⟩ := by
  show (endings language (line :: linesBefore items) taken state).filterMap Ending.given? =
    _ ++ (endings language (linesBefore items) (taken + 1) next).filterMap Ending.given?
  rw [endings_cons, h, List.filterMap_append]
  cases event <;> rfl

/-- **One call.** By induction on the items: a line that closes no block is passed over. -/
theorem advance_call (language : Language) (items : List (Option Text)) (taken : Nat)
    (state : State) (records : List Record) :
    Call ⟨language, items, taken, state, false, records⟩
      (advance language items taken state records).1
      (advance language items taken state records).2 := by
  induction items generalizing taken state records with
  | nil => exact finish_call_nil language taken state records
  | cons item items ih =>
    cases item with
    | none => exact finish_call_gap language items taken state records
    | some line =>
      -- the line closes no block, closes one, or drops one, which is passed over too
      rw [advance]
      rcases hstep : state.step language (taken + 1) line with ⟨next, _ | block | start⟩
      · exact (ih (taken + 1) next records).of_line (pending_line hstep records)
          (limit_line line next records) rfl rfl
      · have hpending : pending ⟨language, some line :: items, taken, state, false, records⟩ =
            (block, some (taken + 1)) ::
              pending ⟨language, items, taken + 1, next, false, records⟩ :=
          pending_line hstep records
        refine ⟨?_, ?_, ?_, (limit_line line next records).symm, 1, rfl, rfl⟩
        · rw [hpending]
          rfl
        · rw [hpending]
          rfl
        · rw [hpending]
          rfl
      · exact (ih (taken + 1) next _).of_line (pending_line hstep _)
          (limit_line line next _) rfl rfl

/-- Every call is of this kind, also those after the end. -/
theorem next_call (scanner : Scanner) : scanner.Call scanner.next.1 scanner.next.2 := by
  obtain ⟨language, items, taken, state, exhausted, records⟩ := scanner
  cases exhausted with
  | true => exact ⟨rfl, rfl, rfl, rfl, 0, rfl, rfl⟩
  | false => exact advance_call language items taken state records

end

/-! ## Any number of calls -/

/-- A scanner after a number of calls. -/
def after (scanner : Scanner) : Nat → Scanner
  | 0 => scanner
  | calls + 1 => (scanner.after calls).next.2

/-- Calls made after a first one. -/
theorem after_next (scanner : Scanner) (calls : Nat) :
    scanner.next.2.after calls = scanner.after (calls + 1) := by
  induction calls with
  | zero => rfl
  | succ calls ih => exact congrArg (fun scanner => scanner.next.2) ih

section

variable (scanner : Scanner) (calls : Nat)

/-- Each call takes the first of what is pending. -/
theorem pending_after : (scanner.after calls).pending = scanner.pending.drop calls := by
  induction calls with
  | zero => rfl
  | succ calls ih => rw [after, (next_call _).pending, ih, List.tail_drop]

/-- The place where the scan has to stop stays the same through all calls. -/
theorem limit_after : (scanner.after calls).limit = scanner.limit := by
  induction calls with
  | zero => rfl
  | succ calls ih => rw [after, (next_call _).limit, ih]

/-- What was taken is exactly what is missing from the items. -/
theorem items_after :
    ∃ count, (scanner.after calls).taken = scanner.taken + count ∧
      (scanner.after calls).items = scanner.items.drop count := by
  induction calls with
  | zero => exact ⟨0, rfl, rfl⟩
  | succ calls ih =>
    obtain ⟨count, htaken, hitems⟩ := ih
    obtain ⟨further, htaken', hitems'⟩ := (next_call (scanner.after calls)).items
    refine ⟨count + further, ?_, ?_⟩
    · rw [after, htaken', htaken, Nat.add_assoc]
    · rw [after, hitems', hitems, List.drop_drop]

/-- What a call gives is what was pending in its place at the start. -/
theorem next_after : (scanner.after calls).next.1 = scanner.pending[calls]?.map Prod.fst := by
  rw [(next_call _).given, pending_after, List.head?_drop]

/-- A call stops at the line on which its block ends, and at the limit if no line ends it. -/
theorem taken_after_succ :
    (scanner.after (calls + 1)).taken =
      (scanner.pending[calls]?.bind Prod.snd).getD scanner.limit := by
  rw [after, (next_call _).taken, pending_after, limit_after, List.head?_drop]

end

/-! ## From the first item on -/

/-- Over items, the blocks of the lines before the first gap are pending, and the next fence line
after the start of a block closes it. -/
theorem pending_ofItems (language : Language) (items : List (Option Text)) :
    (ofItems language items).pending =
      (scanLines language (linesBefore items)).1.map fun block =>
        (block, nextFence? (linesBefore items) block.startLine) := by
  rw [scanLines_eq, blocks_trace_eq_filterMap, List.map_filterMap]
  refine List.filterMap_congr fun ending hmem => ?_
  have hholds := holds_of_mem_endings hmem
  -- what an ending holds of its next fence line is what a call stops at
  cases ending with
  | closed block line =>
    have hnext : nextFence? (linesBefore items) block.startLine = some line := hholds.1
    simp [Ending.given?, Ending.block?, hnext]
  | dropped => rfl
  | unclosed block =>
    have hnext : nextFence? (linesBefore items) block.startLine = none := hholds
    simp [Ending.given?, Ending.block?, hnext]

/-- The next fence line after the start of a block that is given is bare. -/
theorem bare_of_nextFence? {language : Language} {lines : List Text} {block : Block} {number : Nat}
    (hblock : block ∈ (scanLines language lines).1)
    (h : nextFence? lines block.startLine = some number) : lines[number - 1]? = some fence := by
  rw [scanLines_eq, blocks_trace_eq_filterMap] at hblock
  obtain ⟨ending, hmem, hsome⟩ := List.mem_filterMap.mp hblock
  have hholds := holds_of_mem_endings hmem
  cases ending with
  | closed other line =>
    cases hsome
    cases hholds.1.symm.trans h
    exact hholds.2
  | dropped => cases hsome
  | unclosed other =>
    cases hsome
    cases (Eq.symm hholds).trans h

/-- **Scanners over any source.** Over items with gaps, call number `calls`, counted from zero,
gives block number `calls` of the lines before the first gap, if there is one. After it the scanner
has taken the items up to the fence that closes the block, that is the next fence line, which is
bare; or, where no fence line comes after the block's start and where there is no block, the items
up to the first gap, it included, or all. What has been taken is gone from the items, and nothing
else is. -/
theorem next_after_ofItems (language : Language) (items : List (Option Text)) :
    let lines := linesBefore items
    let blocks := (scanLines language lines).1
    let scanner := ofItems language items
    (∀ calls, (scanner.after calls).next.1 = blocks[calls]?) ∧
    (∀ calls, (scanner.after (calls + 1)).taken =
      (blocks[calls]?.bind fun block => nextFence? lines block.startLine).getD (reach items)) ∧
    (∀ calls, (scanner.after calls).items = items.drop (scanner.after calls).taken) ∧
    ∀ block ∈ blocks, ∀ number, nextFence? lines block.startLine = some number →
      lines[number - 1]? = some fence := by
  intro lines blocks scanner
  -- over items from the first one on nothing has been taken yet
  have hlimit : scanner.limit = reach items := Nat.zero_add _
  refine ⟨?_, ?_, ?_, fun block hblock number => bare_of_nextFence? hblock⟩
  · intro calls
    rw [next_after, pending_ofItems, List.getElem?_map, Option.map_map]
    exact Option.map_id'
  · intro calls
    rw [taken_after_succ, pending_ofItems, List.getElem?_map, hlimit, Option.bind_map]
    rfl
  · intro calls
    obtain ⟨count, htaken, hitems⟩ := items_after scanner calls
    have hcount : (scanner.after calls).taken = count := htaken.trans (Nat.zero_add _)
    rw [hitems, hcount]
    rfl

/-- The end is met at the gap, however often the scanner is asked, and the block after the gap is
never given. -/
example :
    let scanner := ofItems (.ofName ['c'])
      [some (fence ++ ['c']), some fence, some ['x'], none, some (fence ++ ['c']), some fence]
    (List.range 3).map
        (fun calls => ((scanner.after calls).next.1, (scanner.after (calls + 1)).taken)) =
      [(some ⟨1, [], []⟩, 2), (none, 4), (none, 4)] := by
  decide

end Scanner

end FencedCode
