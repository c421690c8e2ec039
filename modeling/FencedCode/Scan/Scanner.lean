import FencedCode.BlockSource
import FencedCode.Document.Basic
import FencedCode.Scan.Record
import FencedCode.Scan.State

/-!
# Scanners

A scanner walks over lines that arrive one at a time and stops as soon as a block is complete. Its
input is a list of items, each a line or a gap. A gap says that there is nothing more for now; the
scanner takes the first one as the end, whatever follows, and once it has met the end it never asks
again. It keeps count of the items taken and remembers its remarks.
-/
namespace FencedCode

open Scan

/-- A scan in progress. -/
structure Scanner where
  language : Language
  /-- the items not yet taken; `none` is a gap -/
  items : List (Option Text)
  /-- how many items have been taken -/
  taken : Nat
  state : State
  /-- whether the end has been met -/
  exhausted : Bool
  /-- the remarks so far, the earliest first -/
  records : List Record

namespace Scanner

/-- A scanner that has taken nothing yet. -/
def ofItems (language : Language) (items : List (Option Text)) : Scanner where
  language := language
  items := items
  taken := 0
  state := .initial
  exhausted := false
  records := []

/-- A scanner over lines without gaps. -/
def ofLines (language : Language) (lines : List Text) : Scanner :=
  ofItems language (lines.map some)

/-- Ends the scan: a block that is still open is complete as it is. -/
def finish (scanner : Scanner) : Option Block × Scanner :=
  match scanner.state.mode with
  | .outside => (none, { scanner with exhausted := true })
  | .inside =>
    (some scanner.state.block,
      { scanner with
        state := scanner.state.close
        exhausted := true
        records :=
          scanner.records ++ [.unclosed scanner.language.name scanner.state.blockStart] })

/-- Takes items until a block is complete or the end is met. -/
def advance (language : Language) :
    List (Option Text) → Nat → State → List Record → Option Block × Scanner
  | [], taken, state, records => finish ⟨language, [], taken, state, false, records⟩
  -- a gap counts as taken
  | none :: items, taken, state, records =>
    finish ⟨language, items, taken + 1, state, false, records⟩
  | some line :: items, taken, state, records =>
    match state.step language (taken + 1) line with
    | (state, .quiet) => advance language items (taken + 1) state records
    | (state, .emitted block) => (some block, ⟨language, items, taken + 1, state, false, records⟩)
    | (state, .dropped start) =>
      advance language items (taken + 1) state
        (records ++ [.dropped language.name start (taken + 1)])

/-- The next block, if there is one. -/
def next (scanner : Scanner) : Option Block × Scanner :=
  if scanner.exhausted then (none, scanner)
  else advance scanner.language scanner.items scanner.taken scanner.state scanner.records

/-- The items left, and one more for the end as long as it has not been met. -/
def size (scanner : Scanner) : Nat :=
  scanner.items.length + if scanner.exhausted then 0 else 1

/-- After its end a scanner stays at the end. -/
theorem exhausted_finish (scanner : Scanner) : scanner.finish.2.exhausted = true := by
  unfold finish
  split <;> rfl

/-- The end of a scan takes no item. -/
theorem items_finish (scanner : Scanner) : scanner.finish.2.items = scanner.items := by
  unfold finish
  split <;> rfl

private theorem size_finish (scanner : Scanner) :
    scanner.finish.2.size = scanner.items.length := by
  simp [size, exhausted_finish, items_finish]

/-- A call takes items away and adds none. -/
private theorem size_advance_le (language : Language) (items : List (Option Text)) (taken : Nat)
    (state : State) (records : List Record) :
    (advance language items taken state records).2.size ≤ items.length := by
  fun_induction advance language items taken state records with
  | case1 => simp [size_finish]
  | case2 => simp [size_finish]
  | case3 items taken state records line state' h ih => exact Nat.le_succ_of_le ih
  | case4 => simp [size]
  | case5 items taken state records line state' start h ih => exact Nat.le_succ_of_le ih

/-- A block that is given takes an item away, or is the last one. -/
theorem size_next_lt (scanner : Scanner) (block : Block) (h : scanner.next.1 = some block) :
    scanner.next.2.size < scanner.size := by
  unfold next at h ⊢
  split at h
  · contradiction
  · rename_i he
    rw [if_neg he]
    have := size_advance_le scanner.language scanner.items scanner.taken scanner.state
      scanner.records
    simp only [Bool.not_eq_true] at he
    simp only [size, he] at this ⊢
    exact Nat.lt_succ_of_le this

instance : BlockSource Scanner where
  next := next
  size := size
  size_next_lt := size_next_lt

end Scanner

/-- A scanner over the lines of a document. -/
def Document.scan (document : Document) (language : Language) : Scanner :=
  Scanner.ofLines language document.lines

/-- All blocks of a language in lines, and the remarks of the scan. -/
def scanLines (language : Language) (lines : List Text) : List Block × List Record :=
  let (blocks, scanner) := BlockSource.drain (Scanner.ofLines language lines)
  (blocks, scanner.records)

/-- All blocks of a language in a text with any line ends, and the remarks of the scan. -/
def extract (text : Text) (language : Language) : List Block × List Record :=
  scanLines language (Document.ofText text).lines

/-- All blocks of a language in a text with any line ends. -/
def extractBlocks (text : Text) (language : Language) : List Block :=
  (extract text language).1

end FencedCode
