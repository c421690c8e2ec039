import FencedCode.Proofs.Scan.Renumbering
import FencedCode.Proofs.Scan.Resumption

/-!
# What has been remarked after each call

A scanner makes its remarks while it looks for the next block. Between two calls it stands right
behind a block that a fence closes, or has met the end. In the first case its remarks are on blocks
that were dropped further up (`droppedBefore_of_mem_records_after`), and all that it has still to
say is about blocks further down (`not_droppedBefore_of_mem_filterMap`); in the second it has
nothing more to say. As the two parts together are the remarks of the whole scan
(`records_eq_append_of_not_exhausted`), those made after any call can be told from these and from
the end of the last block (`records_after_succ`).
-/
namespace FencedCode

open Scan

/-- Whether a remark is on a block that is dropped by a fence before the line of the given number.
-/
def Scan.Record.droppedBefore (number : Nat) : Record → Bool
  | dropped _ _ nested => nested < number
  | unclosed .. => false

/-- The line on which a block that is given ends: the next fence line, or that after the last one.
-/
def Scan.endLine (lines : List Text) (block : Block) : Nat :=
  (nextFence? lines block.startLine).getD (lines.length + 1)

/-- What was dropped before a line was dropped before any later one. -/
theorem Scan.Record.droppedBefore_mono {m n : Nat} (hle : m ≤ n) {record : Record}
    (h : record.droppedBefore m = true) : record.droppedBefore n = true := by
  cases record with
  | dropped name start nested =>
    have hlt : nested < m := of_decide_eq_true h
    exact decide_eq_true (Nat.lt_of_lt_of_le hlt hle)
  | unclosed => cases h

namespace Scanner

/-! ## The remarks so far -/

section

variable {language : Language} {lines : List Text} {items : List (Option Text)} {taken calls : Nat}
  {state : State} {records : List Record} {scanner : Scanner}

/-- Where a search ends with a block that a fence closes, the fences that dropped others came
before. -/
theorem droppedBefore_of_mem_records_advance
    (hrecords : ∀ record ∈ records, record.droppedBefore (taken + 1) = true)
    (hend : (advance language items taken state records).2.exhausted = false) :
    ∀ record ∈ (advance language items taken state records).2.records,
      record.droppedBefore (advance language items taken state records).2.taken = true := by
  -- unless the end is met the search ends with a completed block; drops are on lines before it
  fun_induction advance language items taken state records with
  | case1 => cases (exhausted_finish _).symm.trans hend
  | case2 => cases (exhausted_finish _).symm.trans hend
  | case3 _ _ _ _ _ _ _ ih =>
    refine ih (fun record hmem => ?_) hend
    exact Record.droppedBefore_mono (Nat.le_succ _) (hrecords record hmem)
  | case4 => exact hrecords
  | case5 _ _ _ _ _ _ _ _ ih =>
    refine ih (fun record hmem => ?_) hend
    rcases List.mem_append.mp hmem with hmem | hmem
    · exact Record.droppedBefore_mono (Nat.le_succ _) (hrecords record hmem)
    · rw [List.mem_singleton.mp hmem]
      exact decide_eq_true (Nat.lt_succ_self _)

/-- The end is met once and for all. -/
theorem exhausted_of_exhausted_next (h : scanner.next.2.exhausted = false) :
    scanner.exhausted = false := by
  rw [← Bool.not_eq_true]
  intro hend
  rw [next, if_pos hend, hend] at h
  cases h

/-- While a scan is not at its end, it has remarked only on blocks that were dropped before the line
that it has reached. -/
theorem droppedBefore_of_mem_records_next
    (hrecords : ∀ record ∈ scanner.records, record.droppedBefore (scanner.taken + 1) = true)
    (hend : scanner.next.2.exhausted = false) :
    ∀ record ∈ scanner.next.2.records, record.droppedBefore scanner.next.2.taken = true := by
  have hnext : scanner.next =
      advance scanner.language scanner.items scanner.taken scanner.state scanner.records :=
    if_neg (Bool.not_eq_true _ ▸ exhausted_of_exhausted_next hend)
  rw [hnext] at hend ⊢
  exact droppedBefore_of_mem_records_advance hrecords hend

/-- As long as the end is not met, all remarks are on blocks that were dropped by lines that have
been taken. -/
theorem droppedBefore_succ_of_mem_records_after
    (h : ((ofLines language lines).after calls).exhausted = false) :
    ∀ record ∈ ((ofLines language lines).after calls).records,
      record.droppedBefore (((ofLines language lines).after calls).taken + 1) = true := by
  induction calls with
  | zero =>
    intro record hmem
    cases hmem
  | succ calls ih =>
    intro record hmem
    have hrecords := ih (exhausted_of_exhausted_next h)
    exact Record.droppedBefore_mono (Nat.le_succ _)
      (droppedBefore_of_mem_records_next hrecords h record hmem)

/-- The line taken last is not among them, as it closes a block. -/
theorem droppedBefore_of_mem_records_after
    (h : ((ofLines language lines).after (calls + 1)).exhausted = false) :
    ∀ record ∈ ((ofLines language lines).after (calls + 1)).records,
      record.droppedBefore ((ofLines language lines).after (calls + 1)).taken = true :=
  droppedBefore_of_mem_records_next
    (droppedBefore_succ_of_mem_records_after (exhausted_of_exhausted_next h)) h

/-! ## The remarks to come -/

/-- A call that gives no block meets the end. -/
theorem exhausted_of_next_none (h : scanner.next.1 = none) : scanner.next.2.exhausted = true := by
  have hpending : scanner.pending.head? = none := by
    rw [(next_call scanner).given] at h
    exact Option.map_eq_none_iff.mp h
  rw [exhausted_next, hpending]
  rfl

/-- Nothing is drawn from a scanner at its end, and nothing changes in it. -/
theorem drain_of_exhausted (h : scanner.exhausted = true) :
    BlockSource.drain scanner = ([], scanner) := by
  obtain ⟨language, items, taken, state, exhausted, records⟩ := scanner
  cases h
  exact drain_exhausted items

/-- Where a scan ends does not depend on the calls made before. -/
theorem drain_next (scanner : Scanner) :
    (BlockSource.drain scanner.next.2).2 = (BlockSource.drain scanner).2 := by
  rcases hnext : scanner.next with ⟨_ | block, rest⟩
  · have hend : rest.exhausted = true := by
      have h := exhausted_of_next_none (congrArg Prod.fst hnext)
      rwa [hnext] at h
    rw [drain_of_exhausted hend, BlockSource.drain_of_next_none hnext]
  · have hdrain : BlockSource.drain scanner = _ := BlockSource.drain_of_next_some hnext
    rw [hdrain]

/-- Calls made before do not change where the scanner is when all blocks are drawn. -/
theorem drain_after (scanner : Scanner) (calls : Nat) :
    (BlockSource.drain (scanner.after calls)).2 = (BlockSource.drain scanner).2 := by
  induction calls with
  | zero => rfl
  | succ calls ih => rw [after, drain_next, ih]

/-- A scanner that has not met the end has still to remark on the lines left. -/
theorem records_drain (hend : scanner.exhausted = false) (hitems : scanner.items = lines.map some) :
    (BlockSource.drain scanner).2.records =
      scanner.records ++ (endings scanner.language lines scanner.taken scanner.state).filterMap
        (Ending.record? scanner.language.name) := by
  obtain ⟨language, items, taken, state, exhausted, records⟩ := scanner
  cases hend
  cases hitems
  rw [drain_eq, records_trace_eq_filterMap]

/-- The remarks of a scan are those made after some calls and, if the end is not met by then, those
on the lines left. -/
theorem records_eq_append_of_not_exhausted
    (hend : ((ofLines language lines).after calls).exhausted = false) :
    let scanner := (ofLines language lines).after calls
    (scanLines language lines).2 = scanner.records ++
      (endings language (lines.drop scanner.taken) scanner.taken scanner.state).filterMap
        (Ending.record? language.name) := by
  have hlanguage : ((ofLines language lines).after calls).language = language :=
    (atRest_after language _ calls).language
  have hrecords := records_drain hend (items_after_ofLines language lines calls)
  rw [drain_after, hlanguage] at hrecords
  exact hrecords

/-- Outside all blocks, what there is to remark on further lines is on none of the earlier ones. -/
theorem not_droppedBefore_of_mem_filterMap (h : state.openBlock? = none) {name : Text}
    {record : Record}
    (hmem : record ∈ (endings language lines taken state).filterMap (Ending.record? name)) :
    record.droppedBefore taken = false := by
  rw [endings_outside h] at hmem
  obtain ⟨_, hending, hrecord⟩ := List.mem_filterMap.mp hmem
  obtain ⟨ending, hinitial, rfl⟩ := List.mem_map.mp hending
  have hnumbers := numbers_of_mem_endings hinitial
  cases ending with
  | closed => cases hrecord
  | dropped start line =>
    cases hrecord
    have hpos : 0 < line := (hnumbers line (by simp [Ending.numbers])).1
    have hle : ¬ line + taken < taken := by omega
    exact decide_eq_false hle
  | unclosed =>
    cases hrecord
    rfl

/-! ## After each call -/

/-- The fence that closes a block is the line taken last. -/
theorem taken_after_succ_of_nextFence? {block : Block} {number : Nat}
    (h : (scanLines language lines).1[calls]? = some block)
    (hnumber : nextFence? lines block.startLine = some number) :
    ((ofLines language lines).after (calls + 1)).taken = number := by
  rw [taken_after_succ, pending_ofLines, List.getElem?_map, h, Option.map_some, Option.bind_some,
    hnumber]
  rfl

/-- A block that no fence closes ends last, and it alone is left open. -/
theorem exists_endings_eq_concat {block : Block} (h : block ∈ (scanLines language lines).1)
    (hnone : nextFence? lines block.startLine = none) :
    ∃ ended, endings language lines 0 .initial = ended ++ [.unclosed block] ∧
      ∀ other, Ending.unclosed other ∉ ended := by
  obtain ⟨ended, hended, hclosed⟩ := endings_eq_filter_append language lines 0 .initial
  obtain ⟨ending, hmem, hsome⟩ := mem_blocks_iff.mp h
  have hholds := holds_of_mem_endings hmem
  refine ⟨ended, ?_, hclosed⟩
  -- a closing fence would be the next fence line, which there is none of
  cases ending with
  | closed other line =>
    cases hsome
    cases hnone.symm.trans hholds.1
  | dropped => cases hsome
  | unclosed other =>
    cases hsome
    rw [hended, List.mem_append] at hmem
    have hopen := hmem.resolve_left (hclosed block)
    rw [hended, Option.mem_toList.mp hopen]
    rfl

/-- All fences that drop blocks come before the end of the lines. -/
theorem droppedBefore_of_mem_endings {ending : Ending} {name : Text} {record : Record}
    (h : ending ∈ endings language lines 0 .initial) (hclosed : ∀ block, ending ≠ .unclosed block)
    (hrecord : ending.record? name = some record) :
    record.droppedBefore (lines.length + 1) = true := by
  have hnumbers := numbers_of_mem_endings h
  cases ending with
  | closed => cases hrecord
  | dropped start line =>
    cases hrecord
    have hle : line ≤ lines.length := (hnumbers line (by simp [Ending.numbers])).2
    exact decide_eq_true (Nat.lt_succ_of_le hle)
  | unclosed block => exact absurd rfl (hclosed block)

/-- If no fence closes a block, the remarks of the scan are on the blocks that were dropped, and
then on this one. -/
theorem records_of_unclosed {block : Block} (h : block ∈ (scanLines language lines).1)
    (hnone : nextFence? lines block.startLine = none) :
    (scanLines language lines).2 =
      (scanLines language lines).2.filter (Record.droppedBefore (lines.length + 1)) ++
        [.unclosed language.name block.startLine] := by
  obtain ⟨ended, hended, hclosed⟩ := exists_endings_eq_concat h hnone
  have hrecords : (scanLines language lines).2 =
      ended.filterMap (Ending.record? language.name) ++
        [.unclosed language.name block.startLine] := by
    rw [scanLines_eq_filterMap, hended]
    exact List.filterMap_append
  have hdropped : ∀ record ∈ ended.filterMap (Ending.record? language.name),
      record.droppedBefore (lines.length + 1) = true := by
    intro record hmem
    obtain ⟨ending, hending, hrecord⟩ := List.mem_filterMap.mp hmem
    have hmem' : ending ∈ endings language lines 0 .initial := by
      rw [hended]
      exact List.mem_append_left _ hending
    refine droppedBefore_of_mem_endings hmem' (fun other heq => ?_) hrecord
    exact hclosed other (heq ▸ hending)
  have hlast : [Record.unclosed language.name block.startLine].filter
      (Record.droppedBefore (lines.length + 1)) = [] :=
    rfl
  rw [hrecords, List.filter_append, List.filter_eq_self.mpr hdropped, hlast, List.append_nil]

/-- **The remarks after each call.** When a scanner has given a block, it has remarked on the blocks
that are dropped before the end of that block, and on the block itself if no fence closes it. -/
theorem records_after_succ {block : Block} (h : (scanLines language lines).1[calls]? = some block) :
    ((ofLines language lines).after (calls + 1)).records =
      (scanLines language lines).2.filter (Record.droppedBefore (endLine lines block)) ++
        if (nextFence? lines block.startLine).isNone then
          [.unclosed language.name block.startLine] else [] := by
  have hexhausted := exhausted_after_succ h
  rcases hnext : nextFence? lines block.startLine with _ | number
  · -- the end is met, so these are all the remarks
    rw [hnext] at hexhausted
    have hall : (scanLines language lines).2 =
        ((ofLines language lines).after (calls + 1)).records := by
      have hdrain := drain_after (ofLines language lines) (calls + 1)
      rw [drain_of_exhausted hexhausted] at hdrain
      exact congrArg Scanner.records hdrain.symm
    rw [endLine, hnext, ← hall]
    exact records_of_unclosed (List.mem_of_getElem? h) hnext
  · -- the remarks on further lines are on blocks that end further down
    rw [hnext] at hexhausted
    have htaken := taken_after_succ_of_nextFence? h hnext
    have hbefore := droppedBefore_of_mem_records_after hexhausted
    have houtside := (atRest_after language (lines.map some) (calls + 1)).outside
    have hlater : ∀ record ∈ (endings language (lines.drop number) number
        ((ofLines language lines).after (calls + 1)).state).filterMap
          (Ending.record? language.name), ¬ record.droppedBefore number = true :=
      fun record hmem => Bool.not_eq_true _ ▸ not_droppedBefore_of_mem_filterMap houtside hmem
    rw [htaken] at hbefore
    rw [records_eq_append_of_not_exhausted hexhausted, endLine, hnext, Option.getD_some, htaken,
      List.filter_append, List.filter_eq_self.mpr hbefore, List.filter_eq_nil_iff.mpr hlater,
      List.append_nil]
    exact (List.append_nil _).symm

end

end Scanner

end FencedCode
