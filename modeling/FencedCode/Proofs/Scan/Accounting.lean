import FencedCode.Proofs.Scan.Concatenation
import FencedCode.Proofs.Scan.Endings
import Mathlib.Data.List.Nodup

/-!
# What becomes of the blocks of a scan

A scan gives blocks and makes remarks, and the two together account for every line on which a block
opens (`scanLines_account`): the block is either given, or the remark on it names the fence line
that dropped it, which is the first one after it and opens nothing. Only the last block that is
given can lack a fence line after it, and that is when the remarks end with one on an unclosed
block.

## Lines that open a block

Said of the scan itself, a block opens on a line when none is open before the line and one that
starts there is open after it (`OpensAt`). These lines are the openers (`opensAt_iff_isOpener`), so
what is known of endings is known of them.
-/
namespace FencedCode.Scan

section

variable {language : Language} {lines : List Text} {state : State} {index : Nat} {line : Text}

/-- A block opens on the line of the given number. -/
def OpensAt (language : Language) (lines : List Text) (number : Nat) : Prop :=
  ∃ index, number = index + 1 ∧ openAfter language (lines.take index) = none ∧
    ∃ attributes, openAfter language (lines.take (index + 1)) = some ⟨number, attributes, []⟩

/-- Lines keep the invariant of openers. -/
theorem Tracks.trace {pre : List Text} (h : Tracks language pre state) (lines : List Text) :
    Tracks language (pre ++ lines) (trace language lines pre.length state).state := by
  induction lines generalizing pre state with
  | nil =>
    rw [List.append_nil]
    exact h
  | cons line lines ih =>
    have hrest := ih (h.step (pre.length + 1) line)
    rw [List.append_assoc, List.length_append, List.length_singleton] at hrest
    rw [trace_cons]
    exact hrest

/-- The invariant holds after any number of lines from the start. -/
theorem tracks_take (language : Language) (lines : List Text) (index : Nat) :
    Tracks language (lines.take index) (trace language (lines.take index) 0 .initial).state :=
  (tracks_initial language).trace (lines.take index)

/-- What is open after one more line is what a step over it leaves open. -/
theorem openAfter_take_succ (hline : lines[index]? = some line) :
    openAfter language (lines.take (index + 1)) =
      ((trace language (lines.take index) 0 .initial).state.step language (index + 1)
        line).1.openBlock? := by
  have hlt : index < lines.length := (List.getElem?_eq_some_iff.mp hline).1
  have hlength : 0 + (lines.take index).length + 1 = index + 1 := by
    rw [List.length_take_of_le (Nat.le_of_lt hlt), Nat.zero_add]
  rw [openAfter, List.take_add_one, hline, Option.toList_some, trace_append, trace_cons, hlength]
  rfl

/-- The lines on which a block opens are the openers. -/
theorem opensAt_iff_isOpener :
    OpensAt language lines (index + 1) ↔ isOpener language lines index = true := by
  have htracks := tracks_take language lines index
  constructor
  · rintro ⟨i, hi, hbefore, attributes, hafter⟩
    obtain rfl : index = i := Nat.succ.inj hi
    rcases hline : lines[index]? with _ | line
    · -- beyond the last line nothing can open
      rw [List.take_of_length_le (Nat.le_succ_of_le (List.getElem?_eq_none_iff.mp hline))] at hafter
      rw [List.take_of_length_le (List.getElem?_eq_none_iff.mp hline), hafter] at hbefore
      cases hbefore
    · rw [openAfter_take_succ hline] at hafter
      rcases hopening : language.opening? line with _ | given
      · rw [State.step_prose hbefore hopening] at hafter
        cases hbefore.symm.trans hafter
      · have hlatest := latestOpens_of_outside htracks hbefore line
        rw [isOpener, List.take_add_one, hline, Option.toList_some, hlatest, hopening,
          Option.any_some, Language.isFenceLine_of_opening? hopening]
        rfl
  · intro h
    rw [isOpener, Bool.and_eq_true, Option.any_eq_true] at h
    obtain ⟨⟨line, hline, hfence⟩, hlatest⟩ := h
    rw [List.take_add_one, hline, Option.toList_some] at hlatest
    rcases hbefore : openAfter language (lines.take index) with _ | block
    · rw [latestOpens_of_outside htracks hbefore, Option.isSome_iff_exists] at hlatest
      obtain ⟨attributes, hopening⟩ := hlatest
      refine ⟨index, rfl, hbefore, attributes, ?_⟩
      rw [openAfter_take_succ hline, State.step_opening hbefore hopening]
      rfl
    · -- inside a block a fence line opens nothing
      rw [latestOpens_of_inside htracks hbefore, hfence] at hlatest
      cases hlatest

/-- The fence line that drops a block opens none. -/
theorem not_opensAt_of_nextFence? {number : Nat} (hopener : isOpener language lines index = true)
    (h : nextFence? lines (index + 1) = some number) : ¬ OpensAt language lines number := by
  intro hopens
  obtain ⟨i, rfl, -⟩ := id hopens
  obtain ⟨line, hline, hfence, -⟩ := isOpener_iff.mp hopener
  have hbefore : FenceBefore lines index i := fenceBefore_of_nextFence? hline hfence h
  have hnone := (isOpener_iff_before.mp (opensAt_iff_isOpener.mp hopens)).2 index hbefore
  rw [hopener] at hnone
  cases hnone

end

/-! ## Endings as blocks and warnings -/

/-- The lines that a warning names: where the dropped block starts, and where the fence is. -/
def Ending.drop? : Ending → Option (Nat × Nat)
  | dropped start line => some (start, line)
  | closed .. | unclosed _ => none

/-- No line leaves a block unclosed. -/
theorem Event.ending?_ne_unclosed (number : Nat) (event : Event) (block : Block) :
    event.ending? number ≠ some (.unclosed block) := by
  cases event <;> simp [Event.ending?]

/-- Only the last ending can be that of an unclosed block. -/
theorem endings_eq_filter_append (language : Language) (lines : List Text) (taken : Nat)
    (state : State) :
    ∃ ended, endings language lines taken state =
        ended ++ ((trace language lines taken state).state.openBlock?.map
          fun block => Ending.unclosed block.close).toList ∧
      ∀ block, Ending.unclosed block ∉ ended := by
  -- no line leaves a block unclosed, so such an ending comes of the state after the last one
  induction lines generalizing taken state with
  | nil => exact ⟨[], rfl, fun block => List.not_mem_nil⟩
  | cons line lines ih =>
    obtain ⟨ended, hended, hnone⟩ := ih (taken + 1) (state.step language (taken + 1) line).1
    refine ⟨((state.step language (taken + 1) line).2.ending? (taken + 1)).toList ++ ended, ?_, ?_⟩
    · rw [endings_cons, hended, trace_cons, List.append_assoc]
      rfl
    · intro block hmem
      rcases List.mem_append.mp hmem with hmem | hmem
      · exact Event.ending?_ne_unclosed _ _ block (Option.mem_toList.mp hmem)
      · exact hnone block hmem

/-- Of endings that are not those of unclosed blocks, the remarks are warnings. -/
theorem filterMap_record?_eq_map {ended : List Ending} (h : ∀ block, Ending.unclosed block ∉ ended)
    (name : Text) :
    ended.filterMap (Ending.record? name) =
      (ended.filterMap Ending.drop?).map fun drop => Record.dropped name drop.1 drop.2 := by
  rw [List.map_filterMap]
  refine List.filterMap_congr fun ending hmem => ?_
  cases ending with
  | closed => rfl
  | dropped => rfl
  | unclosed block => exact absurd hmem (h block)

/-! ## The account -/

/-- The lines that the warnings of a scan name. -/
def drops (language : Language) (lines : List Text) : List (Nat × Nat) :=
  (endings language lines 0 .initial).filterMap Ending.drop?

section

variable {language : Language} {lines : List Text}

/-- The warnings are the endings of dropped blocks. -/
theorem mem_drops_iff {start line : Nat} :
    (start, line) ∈ drops language lines ↔
      Ending.dropped start line ∈ endings language lines 0 .initial := by
  rw [drops, List.mem_filterMap]
  constructor
  · rintro ⟨ending, hmem, hdrop⟩
    cases ending with
    | dropped =>
      obtain ⟨rfl, rfl⟩ := Prod.mk.inj (Option.some.inj hdrop)
      exact hmem
    | closed => cases hdrop
    | unclosed => cases hdrop
  · intro hmem
    exact ⟨_, hmem, rfl⟩

/-- The blocks that are given are those of the other endings. -/
theorem mem_blocks_iff {block : Block} :
    block ∈ (scanLines language lines).1 ↔
      ∃ ending ∈ endings language lines 0 .initial, ending.block? = some block := by
  rw [scanLines_eq, blocks_trace_eq_filterMap, List.mem_filterMap]

/-- Endings with the same start are the same. -/
theorem ending_eq_of_start_eq {e f : Ending} (he : e ∈ endings language lines 0 .initial)
    (hf : f ∈ endings language lines 0 .initial) (h : e.start = f.start) : e = f := by
  have hstarts : ((endings language lines 0 .initial).map Ending.start).Nodup := by
    rw [List.Nodup, List.pairwise_map]
    exact (pairwise_start_endings language lines).imp Nat.ne_of_lt
  exact List.inj_on_of_nodup_map hstarts he hf h

/-- The blocks that are given start in the order of the document. -/
theorem pairwise_startLine (language : Language) (lines : List Text) :
    ((scanLines language lines).1.map Block.startLine).Pairwise (· < ·) := by
  rw [scanLines_eq, blocks_trace_eq_filterMap, List.pairwise_map, List.pairwise_filterMap]
  refine (pairwise_start_endings language lines).imp ?_
  intro e f hlt block hblock other hother
  rwa [Ending.start_eq_of_block? hblock, Ending.start_eq_of_block? hother] at hlt

/-- So do those that are dropped. -/
theorem pairwise_drops (language : Language) (lines : List Text) :
    ((drops language lines).map Prod.fst).Pairwise (· < ·) := by
  rw [drops, List.pairwise_map, List.pairwise_filterMap]
  refine (pairwise_start_endings language lines).imp ?_
  intro e f hlt drop hdrop other hother
  cases e <;> cases hdrop
  cases f <;> cases hother
  exact hlt

/-- A block is not both given and dropped. -/
theorem nodup_startLine_append_drops (language : Language) (lines : List Text) :
    ((scanLines language lines).1.map Block.startLine ++
      (drops language lines).map Prod.fst).Nodup := by
  rw [List.nodup_append]
  refine ⟨(pairwise_startLine language lines).imp Nat.ne_of_lt,
    (pairwise_drops language lines).imp Nat.ne_of_lt, ?_⟩
  intro start hgiven other hdropped heq
  obtain ⟨block, hblock, rfl⟩ := List.mem_map.mp hgiven
  obtain ⟨⟨_, line⟩, hdrop, rfl⟩ := List.mem_map.mp hdropped
  obtain ⟨ending, hending, hsome⟩ := mem_blocks_iff.mp hblock
  have hstart := Ending.start_eq_of_block? hsome
  -- two endings with one start are the same ending, which either gives its block or drops it
  rw [ending_eq_of_start_eq hending (mem_drops_iff.mp hdrop) (hstart.trans heq)] at hsome
  cases hsome

/-- Each line on which a block opens is the start of an ending, and nothing else is. -/
theorem opensAt_iff_exists_ending {number : Nat} :
    OpensAt language lines number ↔
      ∃ ending ∈ endings language lines 0 .initial, ending.start = number := by
  rw [endings_eq]
  constructor
  · intro h
    obtain ⟨index, rfl, -⟩ := id h
    have hopener := opensAt_iff_isOpener.mp h
    have hlt : index < lines.length := by
      obtain ⟨line, hline, -⟩ := isOpener_iff.mp hopener
      exact (List.getElem?_eq_some_iff.mp hline).1
    exact ⟨_, List.mem_map_of_mem (List.mem_filter.mpr ⟨List.mem_range.mpr hlt, hopener⟩),
      start_endingAt language lines index⟩
  · rintro ⟨ending, hmem, rfl⟩
    obtain ⟨index, hindex, rfl⟩ := List.mem_map.mp hmem
    rw [start_endingAt]
    exact opensAt_iff_isOpener.mpr (List.mem_filter.mp hindex).2

/-- Each line on which a block opens is the start of a block that is given or dropped. -/
theorem mem_append_iff_opensAt {number : Nat} :
    number ∈ (scanLines language lines).1.map Block.startLine ++
        (drops language lines).map Prod.fst ↔
      OpensAt language lines number := by
  rw [opensAt_iff_exists_ending, List.mem_append, List.mem_map, List.mem_map]
  constructor
  · rintro (⟨block, hblock, rfl⟩ | ⟨⟨start, line⟩, hdrop, rfl⟩)
    · obtain ⟨ending, hmem, hsome⟩ := mem_blocks_iff.mp hblock
      exact ⟨ending, hmem, Ending.start_eq_of_block? hsome⟩
    · exact ⟨_, mem_drops_iff.mp hdrop, rfl⟩
  · rintro ⟨ending, hmem, rfl⟩
    cases ending with
    | closed block line => exact Or.inl ⟨block, mem_blocks_iff.mpr ⟨_, hmem, rfl⟩, rfl⟩
    | dropped start line => exact Or.inr ⟨(start, line), mem_drops_iff.mpr hmem, rfl⟩
    | unclosed block => exact Or.inl ⟨block, mem_blocks_iff.mpr ⟨_, hmem, rfl⟩, rfl⟩

/-- A warning names the next fence line, which is not bare and opens nothing. -/
theorem offending_of_mem_drops {start line : Nat} (h : (start, line) ∈ drops language lines) :
    nextFence? lines start = some line ∧ lines[line - 1]? ≠ some fence ∧
      ¬ OpensAt language lines line := by
  rw [mem_drops_iff] at h
  obtain ⟨hnext, hfence⟩ := holds_of_mem_endings h
  have hopens : OpensAt language lines start := opensAt_iff_exists_ending.mpr ⟨_, h, rfl⟩
  obtain ⟨index, rfl, -⟩ := id hopens
  exact ⟨hnext, hfence, not_opensAt_of_nextFence? (opensAt_iff_isOpener.mp hopens) hnext⟩

/-- A fence line comes after the start of each block, unless the last ending is that of an unclosed
one. -/
theorem filter_getLast?_eq_none {ended : List Ending}
    (hholds : ∀ ending ∈ ended, ending.Holds lines)
    (hnone : ∀ block, Ending.unclosed block ∉ ended) :
    (ended.filterMap Ending.block?).getLast?.filter
      (fun block => (nextFence? lines block.startLine).isNone) = none := by
  rw [Option.filter_eq_none_iff]
  intro block hblock
  obtain ⟨ending, hmem, hsome⟩ := List.mem_filterMap.mp (List.mem_of_getLast? hblock)
  have hending := hholds ending hmem
  cases ending with
  | closed other line =>
    cases hsome
    rw [hending.1]
    exact Bool.false_ne_true
  | dropped => cases hsome
  | unclosed other => exact absurd hmem (hnone other)

/-- The remarks are the warnings and, after them, one on the last block that is given, if no fence
line comes after its start. -/
theorem records_scanLines_eq (language : Language) (lines : List Text) :
    (scanLines language lines).2 =
      ((drops language lines).map fun drop => Record.dropped language.name drop.1 drop.2) ++
        (((scanLines language lines).1.getLast?.filter
          fun block => (nextFence? lines block.startLine).isNone).map
            fun block => Record.unclosed language.name block.startLine).toList := by
  obtain ⟨ended, hended, hnone⟩ := endings_eq_filter_append language lines 0 .initial
  have hholds : ∀ ending ∈ endings language lines 0 .initial, ending.Holds lines :=
    fun _ => holds_of_mem_endings
  rw [scanLines_eq]
  simp only [records_trace_eq_filterMap, blocks_trace_eq_filterMap, drops]
  rw [hended] at hholds ⊢
  simp only [List.filterMap_append, filterMap_record?_eq_map hnone]
  -- only whether a block is open after the last line matters from here on
  generalize (trace language lines 0 .initial).state.openBlock? = opened at hholds ⊢
  cases opened with
  | none =>
    simp only [Option.map_none, Option.toList_none, List.append_nil, List.filterMap_nil] at hholds ⊢
    rw [filter_getLast?_eq_none hholds hnone]
    exact (List.append_nil _).symm
  | some block =>
    have hending : nextFence? lines block.close.startLine = none :=
      hholds (.unclosed block.close) (List.mem_append_right _ (List.mem_singleton_self _))
    simp [Ending.drop?, Ending.block?, Ending.record?, hending, Option.filter]

/-- The warnings `drops`, given by the lines that they name, and the blocks that are given account
for each block that a scan opens, and the remarks hold these warnings and little else. -/
structure Account (language : Language) (lines : List Text) (blocks : List Block)
    (records : List Record) (drops : List (Nat × Nat)) : Prop where
  /-- the remarks are the warnings and then at most one on an unclosed block, which is the last
  block that is given, if no fence line comes after its start -/
  records_eq : records =
    (drops.map fun drop => Record.dropped language.name drop.1 drop.2) ++
      ((blocks.getLast?.filter fun block => (nextFence? lines block.startLine).isNone).map
        fun block => Record.unclosed language.name block.startLine).toList
  /-- no block is given twice, dropped twice, or both given and dropped -/
  nodup : (blocks.map Block.startLine ++ drops.map Prod.fst).Nodup
  /-- each block that opens is given or dropped, and no others are -/
  opened : ∀ number,
    number ∈ blocks.map Block.startLine ++ drops.map Prod.fst ↔ OpensAt language lines number
  /-- the blocks that are given are in the order of the document -/
  blocks_increasing : (blocks.map Block.startLine).Pairwise (· < ·)
  /-- so are those that are dropped -/
  drops_increasing : (drops.map Prod.fst).Pairwise (· < ·)
  /-- a warning names the first fence line after the start of the block, which is not bare and on
  which no block opens -/
  offending : ∀ drop ∈ drops, drop.1 < drop.2 ∧ nextFence? lines drop.1 = some drop.2 ∧
    lines[drop.2 - 1]? ≠ some fence ∧ ¬ OpensAt language lines drop.2

end

/-- **A scan accounts for each block that it opens**, exactly once: it gives the block, or warns
that it was dropped. A block opens exactly on the openers, which are the lines that the language
accepts and that come after no fence line or after one that is no opener itself. -/
theorem scanLines_account (language : Language) (lines : List Text) :
    (∃ drops, Account language lines (scanLines language lines).1 (scanLines language lines).2
      drops) ∧
    ∀ index,
      (OpensAt language lines (index + 1) ↔ isOpener language lines index = true) ∧
      (isOpener language lines index = true ↔
        Accepted language lines index ∧
          ∀ earlier, FenceBefore lines earlier index →
            isOpener language lines earlier = false) := by
  refine ⟨⟨drops language lines, records_scanLines_eq language lines,
    nodup_startLine_append_drops language lines, fun number => mem_append_iff_opensAt,
    pairwise_startLine language lines, pairwise_drops language lines, ?_⟩,
    fun index => ⟨opensAt_iff_isOpener, isOpener_iff_before⟩⟩
  rintro ⟨start, line⟩ hdrop
  obtain ⟨hnext, hfence, hopens⟩ := offending_of_mem_drops hdrop
  exact ⟨lt_of_nextFence? hnext, hnext, hfence, hopens⟩

end FencedCode.Scan
