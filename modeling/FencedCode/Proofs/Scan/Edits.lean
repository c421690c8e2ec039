import FencedCode.Proofs.Language.Opening
import FencedCode.Proofs.Scan.Renumbering

/-!
# Editing a document

A line is put into a document after the lines `pre`, or another one put in its place. Where no block
is open, a line that opens none makes no difference but to the numbers of the lines after it. Where
one is open, a line that starts with no fence makes one more line of that block, at its place, if
the block is given, and otherwise no difference but to the numbers either (`scanLines_edit`).

All of this is said of endings first (`endings_insert_outside`, `endings_insert_inside`,
`endings_replace_inside`): the blocks and the remarks of a scan are read off them.
-/
namespace FencedCode

/-- The number that a line has after another line is put in behind the first `place` lines. -/
def numberAfter (place number : Nat) : Nat :=
  if place < number then number + 1 else number

/-- The block with another content, if it is the one that starts on a line. -/
def Block.refill (start : Nat) (content : Text) (block : Block) : Block :=
  if block.startLine = start then { block with content := content } else block

namespace Scan

open FencedCode.Language

/-! ## Edited endings -/

namespace Ending

/-- The ending with the content of its block changed, if the block is the one that starts on a
line. -/
def refill (start : Nat) (content : Text) : Ending → Ending
  | closed block line => .closed (block.refill start content) line
  | dropped start line => .dropped start line
  | unclosed block => .unclosed (block.refill start content)

section

variable {start place k : Nat} {content : Text} {ending : Ending}

/-- Other content for the block of an ending is other content for the block that it gives. -/
@[simp] theorem block?_refill (start : Nat) (content : Text) (ending : Ending) :
    (ending.refill start content).block? = ending.block?.map (Block.refill start content) := by
  cases ending <;> rfl

/-- No remark tells of the content. -/
@[simp] theorem record?_refill (name : Text) (start : Nat) (content : Text) (ending : Ending) :
    (ending.refill start content).record? name = ending.record? name := by
  cases ending with
  | closed => rfl
  | dropped => rfl
  | unclosed block =>
    show some (Record.unclosed name (block.refill start content).startLine) = _
    unfold Block.refill
    split <;> rfl

/-- Other blocks stay as they are. -/
theorem refill_of_ne (h : ending.start ≠ start) : ending.refill start content = ending := by
  cases ending with
  | closed block line => exact congrArg (Ending.closed · line) (if_neg h)
  | dropped => rfl
  | unclosed block => exact congrArg Ending.unclosed (if_neg h)

/-- Lines up to the place keep their numbers. -/
theorem renumber_numberAfter_of_le (h : ∀ n ∈ ending.numbers, n ≤ place) :
    ending.renumber (numberAfter place) = ending :=
  renumber_eq_self fun n hn => if_neg (Nat.not_lt_of_le (h n hn))

/-- Lines behind the place get the next number. -/
theorem renumber_numberAfter_of_lt (h : ∀ n ∈ ending.numbers, 0 < n) (hk : place ≤ k) :
    (ending.renumber (· + k)).renumber (numberAfter place) = ending.renumber (· + (k + 1)) := by
  rw [renumber_renumber]
  refine renumber_congr fun n hn => ?_
  have hpos := h n hn
  have hlt : place < n + k := by omega
  exact if_pos hlt

end

end Ending

/-- A block that is open with other lines in it ends as it did, with those lines in it. -/
theorem ending_refill (block : OpenBlock) (lines : List Text) (taken : Nat) (rest : List Text) :
    (block.ending taken rest).refill block.start (['\n'].intercalate (lines ++ bodyOf rest)) =
      OpenBlock.ending { block with lines := lines } taken rest := by
  have hclose : (block.append (bodyOf rest)).close.refill block.start
        (['\n'].intercalate (lines ++ bodyOf rest)) =
      (OpenBlock.append { block with lines := lines } (bodyOf rest)).close :=
    if_pos rfl
  -- the next fence line is searched in the rest, which does not depend on what the block holds
  unfold OpenBlock.ending
  cases rest.findIdx? isFenceLine with
  | none => exact congrArg Ending.unclosed hclose
  | some index =>
    by_cases hfence : rest[index]? = some fence
    · simp only [if_pos hfence]
      exact congrArg (Ending.closed · _) hclose
    · simp only [if_neg hfence]
      rfl

/-- The line that ends an open block gets the next number, the block starts where it did. -/
theorem ending_renumber_numberAfter {block : OpenBlock} {taken : Nat} (h : block.start ≤ taken)
    (rest : List Text) :
    (block.ending taken rest).renumber (numberAfter taken) = block.ending (taken + 1) rest := by
  have hstart : numberAfter taken block.start = block.start := if_neg (Nat.not_lt_of_le h)
  have hclose : (block.append (bodyOf rest)).close.renumber (numberAfter taken) =
      (block.append (bodyOf rest)).close :=
    congrArg (Block.mk · _ _) hstart
  unfold OpenBlock.ending
  cases rest.findIdx? isFenceLine with
  | none => exact congrArg Ending.unclosed hclose
  | some index =>
    have hline : numberAfter taken (taken + index + 1) = taken + 1 + index + 1 := by
      have hlt : taken < taken + index + 1 := by omega
      rw [numberAfter, if_pos hlt]
      omega
    by_cases hfence : rest[index]? = some fence
    · simp only [if_pos hfence]
      exact congrArg₂ Ending.closed hclose hline
    · simp only [if_neg hfence]
      exact congrArg₂ Ending.dropped hstart hline

section

variable {language : Language} {pre : List Text} {line other : Text} {block : OpenBlock}

/-! ## Endings before and after the place -/

/-- The endings before the place are among those of the lines before it. -/
theorem mem_endings_of_mem_ended {lines : List Text} {ending : Ending}
    (h : ending ∈ ended language lines 0 .initial) :
    ending ∈ endings language lines 0 .initial := by
  rw [endings_eq_ended_append]
  exact List.mem_append_left _ h

/-- The block that is open starts before the place, after all that have ended there. -/
theorem start_of_openAfter (h : openAfter language pre = some block) :
    block.start ≤ pre.length ∧
      ∀ ending ∈ ended language pre 0 .initial, ending.start < block.start := by
  have hendings : endings language pre 0 .initial =
      ended language pre 0 .initial ++ [.unclosed block.close] := by
    have hopen : (trace language pre 0 .initial).state.openBlock? = some block := h
    rw [endings_eq_ended_append, hopen]
    rfl
  -- were the lines to end here, the open block would be the last to end
  have hlast : Ending.unclosed block.close ∈ endings language pre 0 .initial := by
    rw [hendings]
    exact List.mem_append_right _ (List.mem_singleton_self _)
  have hordered := pairwise_start_endings language pre
  rw [hendings, List.pairwise_append] at hordered
  refine ⟨(numbers_of_mem_endings hlast _ (List.mem_singleton_self _)).2, fun ending hmem => ?_⟩
  exact hordered.2.2 ending hmem _ (List.mem_singleton_self _)

/-- The endings before the place keep their numbers. -/
theorem map_renumber_ended (language : Language) (pre : List Text) :
    (ended language pre 0 .initial).map (Ending.renumber (numberAfter pre.length)) =
      ended language pre 0 .initial := by
  refine (List.map_congr_left fun ending hmem => ?_).trans (List.map_id' _)
  have hnumbers := numbers_of_mem_endings (mem_endings_of_mem_ended hmem)
  exact Ending.renumber_numberAfter_of_le fun n hn => (hnumbers n hn).2

/-- The endings behind the place get the next numbers. -/
theorem map_renumber_endings (language : Language) (lines : List Text) {place k : Nat}
    (hk : place ≤ k) :
    ((endings language lines 0 .initial).map (Ending.renumber (· + k))).map
        (Ending.renumber (numberAfter place)) =
      (endings language lines 0 .initial).map (Ending.renumber (· + (k + 1))) := by
  rw [List.map_map]
  refine List.map_congr_left fun ending hmem => ?_
  have hnumbers := numbers_of_mem_endings hmem
  exact Ending.renumber_numberAfter_of_lt (fun n hn => (hnumbers n hn).1) hk

/-- The endings before the place are not those of the block that is open there. -/
theorem map_refill_ended (h : openAfter language pre = some block) (content : Text) :
    (ended language pre 0 .initial).map (Ending.refill block.start content) =
      ended language pre 0 .initial := by
  refine (List.map_congr_left fun ending hmem => ?_).trans (List.map_id' _)
  exact Ending.refill_of_ne (Nat.ne_of_lt ((start_of_openAfter h).2 ending hmem))

/-- Nor are those behind it. -/
theorem map_refill_endings (language : Language) (lines : List Text) {start k : Nat}
    (hk : start ≤ k) (content : Text) :
    ((endings language lines 0 .initial).map (Ending.renumber (· + k))).map
        (Ending.refill start content) =
      (endings language lines 0 .initial).map (Ending.renumber (· + k)) := by
  rw [List.map_map]
  refine List.map_congr_left fun ending hmem => Ending.refill_of_ne ?_
  have hpos := (numbers_of_mem_endings hmem _ ending.start_mem_numbers).1
  rw [Ending.start_renumber]
  omega

/-! ## Edits -/

/-- The endings with a block open at the place: those before it, that of the block, and those after
the next fence line. -/
theorem endings_append_inside (h : openAfter language pre = some block) (rest : List Text) :
    endings language (pre ++ rest) 0 .initial =
      ended language pre 0 .initial ++ block.ending pre.length rest ::
        (endings language (pastFence rest) 0 .initial).map
          (Ending.renumber (· + (pre.length + (bodyOf rest).length + 1))) := by
  rw [endings_append, Nat.zero_add, endings_inside h]

/-- Outside all blocks a line that opens none only moves the others. -/
theorem endings_insert_outside (h : openAfter language pre = none)
    (hline : language.opening? line = none) (post : List Text) :
    endings language (pre ++ line :: post) 0 .initial =
      (endings language (pre ++ post) 0 .initial).map
        (Ending.renumber (numberAfter pre.length)) := by
  rw [endings_append, endings_append, Nat.zero_add, List.map_append, map_renumber_ended,
    endings_cons, State.step_prose h hline, endings_outside h, endings_outside h,
    map_renumber_endings language post (Nat.le_refl _)]
  rfl

/-- The same of a line at the place that starts with no fence, which goes into the block. -/
theorem endings_append_inside_cons (h : openAfter language pre = some block)
    (hline : isFenceLine line = false) (post : List Text) :
    endings language (pre ++ line :: post) 0 .initial =
      ended language pre 0 .initial ++ (block.append [line]).ending (pre.length + 1) post ::
        (endings language (pastFence post) 0 .initial).map
          (Ending.renumber (· + (pre.length + (bodyOf post).length + 1 + 1))) := by
  have hbody : bodyOf (line :: post) = line :: bodyOf post := by
    rw [bodyOf_cons, hline]
    rfl
  have hpast : pastFence (line :: post) = pastFence post := by
    rw [pastFence, hbody]
    rfl
  rw [endings_append_inside h, ending_cons_of_body hline, hbody, hpast]
  rfl

/-- Inside a block a line that starts with no fence moves the others and goes into the block. -/
theorem endings_insert_inside (h : openAfter language pre = some block)
    (hline : isFenceLine line = false) (post : List Text) :
    endings language (pre ++ line :: post) 0 .initial =
      ((endings language (pre ++ post) 0 .initial).map (Ending.refill block.start
        (['\n'].intercalate (block.lines ++ line :: bodyOf post)))).map
          (Ending.renumber (numberAfter pre.length)) := by
  obtain ⟨hstart, -⟩ := start_of_openAfter h
  have hfilled : (block.append [line]).start ≤ pre.length := hstart
  -- of the open block: filled with the line, then moved
  have hending : ((block.ending pre.length post).refill block.start
        (['\n'].intercalate (block.lines ++ line :: bodyOf post))).renumber
          (numberAfter pre.length) =
      (block.append [line]).ending (pre.length + 1) post := by
    rw [List.append_cons, ending_refill]
    exact ending_renumber_numberAfter hfilled post
  rw [endings_append_inside_cons h hline, endings_append_inside h, List.map_append, List.map_cons,
    List.map_append, List.map_cons, map_refill_ended h, map_renumber_ended, hending,
    map_refill_endings language _ (by omega), map_renumber_endings language _ (by omega)]

/-- Another line in the place of one that starts with no fence, inside a block, takes its place in
the block. -/
theorem endings_replace_inside (h : openAfter language pre = some block)
    (hline : isFenceLine line = false) (hother : isFenceLine other = false) (post : List Text) :
    endings language (pre ++ other :: post) 0 .initial =
      (endings language (pre ++ line :: post) 0 .initial).map (Ending.refill block.start
        (['\n'].intercalate (block.lines ++ other :: bodyOf post))) := by
  obtain ⟨hstart, -⟩ := start_of_openAfter h
  have hending : ((block.append [line]).ending (pre.length + 1) post).refill block.start
        (['\n'].intercalate (block.lines ++ other :: bodyOf post)) =
      (block.append [other]).ending (pre.length + 1) post := by
    rw [List.append_cons]
    exact ending_refill (block.append [line]) (block.lines ++ [other]) _ post
  rw [endings_append_inside_cons h hline, endings_append_inside_cons h hother, List.map_append,
    List.map_cons, map_refill_ended h, hending, map_refill_endings language _ (by omega)]

end

/-! ## Edited documents -/

/-- What is read off changed endings is what was read off them, changed. -/
theorem filterMap_map_of_comm {α : Type} {read? : Ending → Option α} {change : Ending → Ending}
    {f : α → α} (h : ∀ ending, read? (change ending) = (read? ending).map f)
    (endings : List Ending) :
    (endings.map change).filterMap read? = (endings.filterMap read?).map f := by
  rw [List.filterMap_map, List.map_filterMap]
  exact List.filterMap_congr fun ending _ => h ending

/-- So the remarks on edited endings are those on the endings before. -/
theorem filterMap_record?_map_refill (name : Text) (start : Nat) (content : Text)
    (endings : List Ending) :
    (endings.map (Ending.refill start content)).filterMap (Ending.record? name) =
      endings.filterMap (Ending.record? name) := by
  rw [List.filterMap_map]
  exact List.filterMap_congr fun ending _ => ending.record?_refill name start content

section

variable {language : Language} {pre : List Text} {line other : Text} {block : OpenBlock}

/-- A document with a line more outside all blocks has the same blocks and remarks, on the lines
where they now are. -/
theorem scanLines_insert_outside (h : openAfter language pre = none)
    (hline : language.opening? line = none) (post : List Text) :
    scanLines language (pre ++ line :: post) =
      ((scanLines language (pre ++ post)).1.map (Block.renumber (numberAfter pre.length)),
        (scanLines language (pre ++ post)).2.map (Record.renumber (numberAfter pre.length))) := by
  rw [scanLines_eq_filterMap, scanLines_eq_filterMap, endings_insert_outside h hline,
    filterMap_map_of_comm (Ending.block?_renumber _),
    filterMap_map_of_comm (Ending.record?_renumber _ _)]

/-- A document with a line more in a block has the same blocks and remarks, on the lines where they
now are, but for the content of that block. -/
theorem scanLines_insert_inside (h : openAfter language pre = some block)
    (hline : isFenceLine line = false) (post : List Text) :
    scanLines language (pre ++ line :: post) =
      (((scanLines language (pre ++ post)).1.map (Block.refill block.start
          (['\n'].intercalate (block.lines ++ line :: bodyOf post)))).map
          (Block.renumber (numberAfter pre.length)),
        (scanLines language (pre ++ post)).2.map (Record.renumber (numberAfter pre.length))) := by
  rw [scanLines_eq_filterMap, scanLines_eq_filterMap, endings_insert_inside h hline,
    filterMap_map_of_comm (Ending.block?_renumber _),
    filterMap_map_of_comm (Ending.record?_renumber _ _),
    filterMap_map_of_comm (Ending.block?_refill _ _), filterMap_record?_map_refill]

/-- A document with another line in a block has the same blocks and remarks but for the content of
that block. -/
theorem scanLines_replace_inside (h : openAfter language pre = some block)
    (hline : isFenceLine line = false) (hother : isFenceLine other = false) (post : List Text) :
    scanLines language (pre ++ other :: post) =
      ((scanLines language (pre ++ line :: post)).1.map (Block.refill block.start
          (['\n'].intercalate (block.lines ++ other :: bodyOf post))),
        (scanLines language (pre ++ line :: post)).2) := by
  rw [scanLines_eq_filterMap, scanLines_eq_filterMap, endings_replace_inside h hline hother,
    filterMap_map_of_comm (Ending.block?_refill _ _), filterMap_record?_map_refill]

/-- The block that is open at a place holds the lines read there and those up to the next fence
line, if it is given. -/
theorem eq_close_of_startLine_eq (h : openAfter language pre = some block) {post : List Text}
    {given : Block} (hgiven : given ∈ (scanLines language (pre ++ post)).1)
    (hstart : given.startLine = block.start) : given = (block.append (bodyOf post)).close := by
  obtain ⟨ending, hmem, hsome⟩ := mem_blocks_iff.mp hgiven
  have hopen : block.ending pre.length post ∈ endings language (pre ++ post) 0 .initial := by
    rw [endings_append_inside h]
    exact List.mem_append_right _ List.mem_cons_self
  have hblock : (block.ending pre.length post).start = block.start := by
    unfold OpenBlock.ending
    split
    · rfl
    · split <;> rfl
  -- no two endings have one start, so the block is that of this ending
  have hsame := ending_eq_of_start_eq hmem hopen
    ((Ending.start_eq_of_block? hsome).trans (hstart.trans hblock.symm))
  rw [hsame] at hsome
  unfold OpenBlock.ending at hsome
  split at hsome
  · exact (Option.some.inj hsome).symm
  · split at hsome
    · exact (Option.some.inj hsome).symm
    · cases hsome

end

/-- Lines that start with no fence open no block, nor do the fences of tags that the language has
not. -/
theorem opening?_eq_none_of_not_fence {language : Language} {line : Text}
    (h : isFenceLine line = false) : language.opening? line = none := by
  rw [Option.eq_none_iff_forall_ne_some]
  intro attributes hopening
  rw [Language.isFenceLine_of_opening? hopening] at h
  cases h

/-- **Edits have a local effect.** A line is put between the lines `pre` and the lines `post`. Where
no block is open, a line that opens none leaves all blocks and remarks as they were, on the lines
where they now are, and another such line in its place changes nothing. Where a block is open, a
line that starts with no fence does the same but for the content of this block, if it is given, in
which it stands between the lines that were read and those up to the next fence line; and another
such line in its place changes that content alone. The first kind of lines are prose and the fences
of tags that the language has not, a bare fence among them. -/
theorem scanLines_edit (language : Language) (pre post : List Text) :
    (openAfter language pre = none → ∀ line, language.opening? line = none →
      let before := scanLines language (pre ++ post)
      let after := scanLines language (pre ++ line :: post)
      after.1 = before.1.map (Block.renumber (numberAfter pre.length)) ∧
      after.2 = before.2.map (Record.renumber (numberAfter pre.length)) ∧
      ∀ other, language.opening? other = none →
        scanLines language (pre ++ other :: post) = after) ∧
    (∀ block, openAfter language pre = some block →
      block.start ≤ pre.length ∧
      (∀ given ∈ (scanLines language (pre ++ post)).1, given.startLine = block.start →
        given = (block.append (bodyOf post)).close) ∧
      ∀ line, isFenceLine line = false →
        let before := scanLines language (pre ++ post)
        let after := scanLines language (pre ++ line :: post)
        let content (line : Text) := ['\n'].intercalate (block.lines ++ line :: bodyOf post)
        after.1 = (before.1.map (Block.refill block.start (content line))).map
          (Block.renumber (numberAfter pre.length)) ∧
        after.2 = before.2.map (Record.renumber (numberAfter pre.length)) ∧
        ∀ other, isFenceLine other = false →
          (scanLines language (pre ++ other :: post)).1 =
            after.1.map (Block.refill block.start (content other)) ∧
          (scanLines language (pre ++ other :: post)).2 = after.2) ∧
    (∀ line, isFenceLine line = false → language.opening? line = none) ∧
    ∀ tag written, ',' ∉ tag → language.hasTag tag = false →
      language.opening? (openingFence tag written) = none := by
  refine ⟨fun h line hline => ⟨?_, ?_, fun other hother => ?_⟩,
    fun block h => ⟨(start_of_openAfter h).1, fun given => eq_close_of_startLine_eq h,
      fun line hline => ⟨?_, ?_, fun other hother => ⟨?_, ?_⟩⟩⟩,
    fun line => opening?_eq_none_of_not_fence, fun tag written hcomma htag => ?_⟩
  · rw [scanLines_insert_outside h hline]
  · rw [scanLines_insert_outside h hline]
  · rw [scanLines_insert_outside h hother, scanLines_insert_outside h hline]
  · rw [scanLines_insert_inside h hline]
  · rw [scanLines_insert_inside h hline]
  · rw [scanLines_replace_inside h hline hother]
  · rw [scanLines_replace_inside h hline hother]
  · rw [opening?_openingFence hcomma, htag]
    rfl

/-- A bare fence and then prose outside all blocks, before a block that is left open; and a line and
then another one in a block that is closed, and in one that is dropped. -/
theorem scanLines_edit_fences :
    let language := Language.ofName ['c']
    let inside := [fence ++ ['c', ',', 'a'], ['x']]
    let outside := inside ++ [fence]
    let closing := [['y'], fence, fence ++ ['c']]
    let dropping := [fence ++ ['c'], fence ++ ['c'], fence]
    (openAfter language outside = none ∧ language.hasTag [] = false ∧
      openAfter language inside = some ⟨1, ['a'], [['x']]⟩ ∧ isFenceLine ['z'] = false) ∧
    (scanLines language (outside ++ [fence ++ ['c']]) =
        ([⟨1, ['a'], ['x']⟩, ⟨4, [], []⟩], [.unclosed ['c'] 4]) ∧
      scanLines language (outside ++ [fence, fence ++ ['c']]) =
        ([⟨1, ['a'], ['x']⟩, ⟨5, [], []⟩], [.unclosed ['c'] 5]) ∧
      scanLines language (outside ++ [['z'], fence ++ ['c']]) =
        scanLines language (outside ++ [fence, fence ++ ['c']])) ∧
    ((scanLines language (inside ++ closing)).1 = [⟨1, ['a'], ['x', '\n', 'y']⟩, ⟨5, [], []⟩] ∧
      (scanLines language (inside ++ ['z'] :: closing)).1 =
        [⟨1, ['a'], ['x', '\n', 'z', '\n', 'y']⟩, ⟨6, [], []⟩] ∧
      (scanLines language (inside ++ [] :: closing)).1 =
        [⟨1, ['a'], ['x', '\n', '\n', 'y']⟩, ⟨6, [], []⟩]) ∧
    scanLines language (inside ++ dropping) = ([⟨4, [], []⟩], [.dropped ['c'] 1 3]) ∧
    (scanLines language (inside ++ ['z'] :: dropping)).1 = [⟨5, [], []⟩] ∧
    (scanLines language (inside ++ ['z'] :: dropping)).2 = [.dropped ['c'] 1 4] := by
  intro language inside outside closing dropping
  have houtside : openAfter language outside = none := by decide +kernel
  have hinside : openAfter language inside = some ⟨1, ['a'], [['x']]⟩ := by decide +kernel
  have htag : language.hasTag [] = false := by decide
  have hz : isFenceLine ['z'] = false := by decide
  have hblank : isFenceLine [] = false := by decide
  obtain ⟨hout, -, hprose, hfence⟩ := scanLines_edit language outside [fence ++ ['c']]
  obtain ⟨-, hclosing, -, -⟩ := scanLines_edit language inside closing
  obtain ⟨-, hdropping, -, -⟩ := scanLines_edit language inside dropping
  have hbare : language.opening? fence = none := hfence [] none (by decide) htag
  obtain ⟨hblocks, hrecords, hsame⟩ := hout houtside fence hbare
  obtain ⟨-, -, hline⟩ := hclosing _ hinside
  obtain ⟨hgiven, -, hother⟩ := hline ['z'] hz
  obtain ⟨-, -, hnested⟩ := hdropping _ hinside
  obtain ⟨hkept, hwarned, -⟩ := hnested ['z'] hz
  refine ⟨⟨houtside, htag, hinside, hz⟩, ⟨by decide +kernel, Prod.ext (hblocks.trans ?_)
    (hrecords.trans ?_), hsame ['z'] (hprose _ hz)⟩, ⟨by decide +kernel, hgiven.trans ?_,
    (hother [] hblank).1.trans ?_⟩, by decide +kernel, hkept.trans ?_, hwarned.trans ?_⟩
  all_goals decide +kernel

end Scan

end FencedCode
