import FencedCode.Output.Writer

/-!
# Drawing blocks while writing

How a run of writes goes on after one block, in one equation for each way in which a draw and the
write after it can end. What is written depends on the source only through the blocks that it gives:
a run that draws from a source and one over the list of all its blocks come to the same
(`writeFrom_drain`), failures included, although the first stops looking for blocks when it fails. A
run that does not fail leaves the source as its last block does (`writeFrom_of_result_ok`).
-/
namespace FencedCode

section

variable {σ τ : Type} [Sink τ] [BlockSource σ] {format : Format} {source rest : σ}
  {sink after : τ} {written : Nat} {block : Block} {e : WriteError}

/-- A source without a block ends the run. -/
theorem writeFrom_of_next_none (h : BlockSource.next source = (none, rest)) :
    writeFrom format source sink written = ⟨.ok written, sink, rest, written⟩ := by
  rw [writeFrom]
  split
  · rename_i h'
    rw [(Prod.mk.inj (h'.symm.trans h)).2]
  · rename_i h'
    cases h'.symm.trans h

/-- A block that is written is counted, and the run goes on. -/
theorem writeFrom_of_ok (h : BlockSource.next source = (some block, rest))
    (hwrite : writeBlock format block sink = (after, none)) :
    writeFrom format source sink written = writeFrom format rest after (written + 1) := by
  rw [writeFrom]
  split
  · rename_i h'
    cases h'.symm.trans h
  · rename_i h'
    obtain ⟨⟨rfl⟩, rfl⟩ := Prod.mk.inj (h'.symm.trans h)
    rw [hwrite]

/-- A block that is refused ends the run. -/
theorem writeFrom_of_error (h : BlockSource.next source = (some block, rest))
    (hwrite : writeBlock format block sink = (after, some e)) :
    writeFrom format source sink written = ⟨.error e, after, rest, written + 1⟩ := by
  rw [writeFrom]
  split
  · rename_i h'
    cases h'.symm.trans h
  · rename_i h'
    obtain ⟨⟨rfl⟩, rfl⟩ := Prod.mk.inj (h'.symm.trans h)
    rw [hwrite]

end

/-! ## From lists -/

section

variable {τ : Type} [Sink τ] {format : Format} {sink after : τ} {written : Nat} {block : Block}
  {e : WriteError}

/-- A list without blocks ends the run. -/
theorem writeFrom_nil :
    writeFrom format ([] : List Block) sink written = ⟨.ok written, sink, [], written⟩ :=
  writeFrom_of_next_none rfl

/-- A block that is written leaves the others to be written. -/
theorem writeFrom_cons_of_ok (hwrite : writeBlock format block sink = (after, none))
    (blocks : List Block) :
    writeFrom format (block :: blocks) sink written =
      writeFrom format blocks after (written + 1) :=
  writeFrom_of_ok rfl hwrite

/-- A block that is refused ends the run, and was drawn. -/
theorem writeFrom_cons_of_error (hwrite : writeBlock format block sink = (after, some e))
    (blocks : List Block) :
    writeFrom format (block :: blocks) sink written = ⟨.error e, after, blocks, written + 1⟩ :=
  writeFrom_of_error rfl hwrite

end

/-! ## From any source -/

/-- Two runs that came to the same, whatever is left of their sources. -/
structure WriteReport.Agrees {σ υ τ : Type} (report : WriteReport σ τ) (other : WriteReport υ τ) :
    Prop where
  result : report.result = other.result
  sink : report.sink = other.sink
  drawn : report.drawn = other.drawn

section

variable {σ τ : Type} [Sink τ] [BlockSource σ]

/-- Blocks drawn from a source are written as the list of them is. -/
theorem writeFrom_drain (format : Format) (source : σ) (sink : τ) (written : Nat) :
    (writeFrom format source sink written).Agrees
      (writeFrom format (BlockSource.drain source).1 sink written) := by
  -- along the calls that draw all blocks
  induction source using BlockSource.drain.induct generalizing sink written with
  | case1 source block rest hnext _ _ _ ih =>
    rw [BlockSource.drain_of_next_some hnext]
    rcases hwrite : writeBlock format block sink with ⟨after, _ | e⟩
    · rw [writeFrom_of_ok hnext hwrite, writeFrom_cons_of_ok hwrite]
      exact ih after (written + 1)
    · rw [writeFrom_of_error hnext hwrite, writeFrom_cons_of_error hwrite]
      exact ⟨rfl, rfl, rfl⟩
  | case2 source rest hnext =>
    rw [BlockSource.drain_of_next_none hnext, writeFrom_of_next_none hnext, writeFrom_nil]
    exact ⟨rfl, rfl, rfl⟩

/-- A run without a failure has written all blocks of its source and has left none in it. -/
theorem writeFrom_of_result_ok {format : Format} {source : σ} {sink : τ} {written count : Nat}
    (h : (writeFrom format source sink written).result = .ok count) :
    count = written + (BlockSource.drain source).1.length ∧
      (writeFrom format source sink written).source = (BlockSource.drain source).2 := by
  -- a failure at a block contradicts the result, so the run goes along all calls
  induction source using BlockSource.drain.induct generalizing sink written with
  | case1 source block rest hnext _ _ _ ih =>
    rcases hwrite : writeBlock format block sink with ⟨after, _ | e⟩
    · rw [writeFrom_of_ok hnext hwrite] at h ⊢
      rw [BlockSource.drain_of_next_some hnext]
      obtain ⟨hcount, hsource⟩ := ih h
      rw [List.length_cons]
      exact ⟨by omega, hsource⟩
    · rw [writeFrom_of_error hnext hwrite] at h
      cases h
  | case2 source rest hnext =>
    rw [writeFrom_of_next_none hnext] at h ⊢
    rw [BlockSource.drain_of_next_none hnext]
    exact ⟨(Except.ok.inj h).symm, rfl⟩

end

end FencedCode
