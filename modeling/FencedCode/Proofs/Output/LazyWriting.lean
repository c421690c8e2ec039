import FencedCode.Proofs.Output.Drawing
import FencedCode.Proofs.Scan.Remarks

/-!
# Writing while scanning

The blocks of a document can be written as the scan finds them, or all found first and then written.
The output and the outcome are the same (`writeFrom_drain` says so of any source). What differs is
what has been remarked when the writing fails: a scan that is asked for no more blocks has read up
to the end of the one that failed, and no further (`exists_after_of_writeFrom_error`), so it has
remarked on the blocks dropped before that line only.
-/
namespace FencedCode

open Scan

/-! ## Where a failed run stops -/

section

variable {τ : Type} [Sink τ] {format : Format} {sink after : τ} {block : Block} {e : WriteError}

/-- A failure to write a block names the line on which it starts. -/
theorem line_of_writeBlock_error (h : writeBlock format block sink = (after, some e)) :
    e.line = block.startLine := by
  rw [writeBlock] at h
  rcases hpieces : writePieces (block.pieces format) sink with ⟨reached, _ | ⟨stage, fault⟩⟩
  · simp only [hpieces] at h
    rcases hflush : Sink.flush reached with ⟨flushed, _ | fault⟩
    · simp only [hflush] at h
      cases h
    · simp only [hflush] at h
      cases h
      rfl
  · simp only [hpieces] at h
    cases h
    rfl

/-- A run that fails has called the scanner once for each block that was written and once for the
one that failed, and leaves it there. -/
theorem exists_after_of_writeFrom_error (format : Format) (scanner : Scanner) (sink : τ)
    (written : Nat) (h : (writeFrom format scanner sink written).result = .error e) :
    ∃ calls block, (scanner.after calls).next.1 = some block ∧ e.line = block.startLine ∧
      (writeFrom format scanner sink written).drawn = written + calls + 1 ∧
      (writeFrom format scanner sink written).source = scanner.after (calls + 1) := by
  -- along the calls: one whose block is written leaves the scanner for those that follow
  induction scanner using BlockSource.drain.induct generalizing sink written with
  | case1 scanner block rest hnext _ _ _ ih =>
    have hscanner : scanner.next = (some block, rest) := hnext
    rcases hwrite : writeBlock format block sink with ⟨after, _ | fault⟩
    · rw [writeFrom_of_ok hnext hwrite] at h ⊢
      obtain ⟨calls, last, hgiven, hline, hdrawn, hsource⟩ := ih after (written + 1) h
      have hafter (n : Nat) : rest.after n = scanner.after (n + 1) := by
        rw [← Scanner.after_next, hscanner]
      rw [hafter] at hgiven hsource
      exact ⟨calls + 1, last, hgiven, hline, by omega, hsource⟩
    · rw [writeFrom_of_error hnext hwrite] at h ⊢
      cases h
      have hgiven : scanner.next.1 = some block := congrArg Prod.fst hscanner
      have hsource : rest = scanner.next.2 := (congrArg Prod.snd hscanner).symm
      exact ⟨0, block, hgiven, line_of_writeBlock_error hwrite, rfl, hsource⟩
  | case2 scanner rest hnext =>
    rw [writeFrom_of_next_none hnext] at h
    cases h

end

/-! ## Documents -/

/-- **Writing while scanning is writing what was scanned.** To any sink, the blocks of a document
are written as the scan gives them just as the list of all of them is: the count or the failure is
the same, and so are the sink at the end and the number of blocks drawn. When the writing fails at a
block, the scan has remarked on the blocks that are dropped before the end of this one, and on this
one if no fence closes it, and on no others. -/
theorem writeBlocks_scan {τ : Type} [Sink τ] (text : Text) (language : Language) (format : Format)
    (sink : τ) :
    let lines := (Document.ofText text).lines
    let blocks := extractBlocks text language
    let records := (extract text language).2
    let lazily := writeBlocks format ((Document.ofText text).scan language) sink
    let eagerly := writeBlocks format blocks sink
    lazily.result = eagerly.result ∧ lazily.sink = eagerly.sink ∧ lazily.drawn = eagerly.drawn ∧
    ∀ e, lazily.result = .error e → ∃ calls block,
      blocks[calls]? = some block ∧ e.line = block.startLine ∧ lazily.drawn = calls + 1 ∧
      lazily.source.records =
        records.filter (Record.droppedBefore (endLine lines block)) ++
          if (nextFence? lines block.startLine).isNone then
            [.unclosed language.name block.startLine] else [] := by
  intro lines blocks records lazily eagerly
  have hagrees : lazily.Agrees eagerly :=
    writeFrom_drain format ((Document.ofText text).scan language) sink 0
  refine ⟨hagrees.result, hagrees.sink, hagrees.drawn, fun e hfailed => ?_⟩
  obtain ⟨calls, block, hgiven, hline, hdrawn, hsource⟩ :=
    exists_after_of_writeFrom_error format ((Document.ofText text).scan language) sink 0 hfailed
  -- the call at which the writing fails gives the block of that place in the whole scan
  have hblock : blocks[calls]? = some block :=
    (Scanner.next_after_ofLines language lines calls).symm.trans hgiven
  refine ⟨calls, block, hblock, hline, hdrawn.trans (by omega), ?_⟩
  have hrecords := Scanner.records_after_succ hblock
  exact (congrArg Scanner.records hsource).trans hrecords

/-- A block is dropped, one is closed, another is dropped, and the last is left open. There is no
room for the closed one, or the last one cannot be flushed. -/
theorem writeBlocks_scan_full_or_tired :
    let language := Language.ofName ['c']
    let text := "\x60\x60\x60c\n\x60\x60\x60c\n\x60\x60\x60c\nx\n\x60\x60\x60\n".toList ++
      "\x60\x60\x60c\n\x60\x60\x60d\n\x60\x60\x60c\ny".toList
    let full := writeBlocks .records ((Document.ofText text).scan language)
      (LimitedSink.empty (some 4) none)
    let tired := writeBlocks .records ((Document.ofText text).scan language)
      (LimitedSink.empty none (some 1))
    ((extract text language).2 = [.dropped ['c'] 1 2, .dropped ['c'] 6 7, .unclosed ['c'] 8] ∧
      full.result = .error ⟨3, .record, .full⟩ ∧ tired.result = .error ⟨8, .flush, .flushFailed⟩) ∧
    (full.drawn = 1 ∧ full.source.records = [.dropped ['c'] 1 2]) ∧
    tired.drawn = 2 ∧
      tired.source.records = [.dropped ['c'] 1 2, .dropped ['c'] 6 7, .unclosed ['c'] 8] := by
  intro language text full tired
  have hfull : full.result = .error ⟨3, .record, .full⟩ := by decide +kernel
  have htired : tired.result = .error ⟨8, .flush, .flushFailed⟩ := by decide +kernel
  obtain ⟨-, -, hdrawn, hfailed⟩ :=
    writeBlocks_scan text language .records (LimitedSink.empty (some 4) none)
  obtain ⟨-, -, hdrawn', hfailed'⟩ :=
    writeBlocks_scan text language .records (LimitedSink.empty none (some 1))
  have hcount : full.drawn = 1 := hdrawn.trans (by decide +kernel)
  have hcount' : tired.drawn = 2 := hdrawn'.trans (by decide +kernel)
  refine ⟨⟨by decide +kernel, hfull, htired⟩, ⟨hcount, ?_⟩, hcount', ?_⟩
  · obtain ⟨calls, block, hblock, -, hcalls, hrecords⟩ := hfailed _ hfull
    obtain rfl : calls = 0 := Nat.succ.inj (hcalls.symm.trans hcount)
    obtain rfl : block = ⟨3, [], ['x']⟩ := Option.some.inj (hblock.symm.trans (by decide +kernel))
    exact hrecords.trans (by decide +kernel)
  · obtain ⟨calls, block, hblock, -, hcalls, hrecords⟩ := hfailed' _ htired
    obtain rfl : calls = 1 := Nat.succ.inj (hcalls.symm.trans hcount')
    obtain rfl : block = ⟨8, [], ['y']⟩ := Option.some.inj (hblock.symm.trans (by decide +kernel))
    exact hrecords.trans (by decide +kernel)

end FencedCode
