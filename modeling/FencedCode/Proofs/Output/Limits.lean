import FencedCode.Proofs.Output.Drawing
import FencedCode.Proofs.Output.Encoding
import Mathlib.Data.List.Induction

/-!
# Writing into limited sinks

What becomes of a run of writes into a sink with room for a number of bytes and strength for a
number of flushes. The bytes that are handed over are kept up to the capacity, however they are cut
into pieces (`LimitedSink.writePieces_taking`), and the piece in which they pass it names the stage
of the failure. So the first block that is over one of the two limits decides the run
(`writeBlocks_limited`): all blocks before it are written and flushed, the sink holds as much of it
as there is room for, and nothing after it is drawn.

## Shape of the proof

`LimitedSink.taking` is the state of a sink in terms of what it was handed.
`LimitedSink.writeBlock_taking` is the step, one block written in such a state, and
`writeBlocks_append_of_within` the run, all blocks that are within both limits.
-/
namespace FencedCode

/-! ## Messages -/

theorem Stage.context_record : Stage.record.context = [] :=
  rfl

theorem Stage.context_object : Stage.object.context = "Failed to serialize block: ".toList :=
  rfl

theorem Stage.context_newline : Stage.newline.context = [] :=
  rfl

/-- A message names the block, then the stage and the cause. -/
theorem WriteError.message_eq (line : Nat) (stage : Stage) (cause : SinkFault) :
    (WriteError.mk line stage cause).message =
      "Failed to write block at line ".toList ++ Text.ofNat line ++ ": ".toList ++
        (stage.context ++ cause.message) :=
  List.append_assoc ..

theorem context_message_full (stage : Stage) :
    stage.context ++ SinkFault.full.message = stage.context ++ "sink full".toList :=
  rfl

theorem context_message_flushFailed :
    Stage.flush.context ++ SinkFault.flushFailed.message =
      "Failed to write output: flush failed".toList := by
  decide +kernel

/-! ## Limits -/

/-- Whether a number is over a limit; without one no number is. -/
def Over : Option Nat → Nat → Prop
  | none, _ => False
  | some limit, n => limit < n

instance (limit : Option Nat) (n : Nat) : Decidable (Over limit n) :=
  match limit with
  | none => inferInstanceAs (Decidable False)
  | some limit => inferInstanceAs (Decidable (limit < n))

/-- What is over a limit stays over it when there is more. -/
theorem Over.mono {limit : Option Nat} {m n : Nat} (h : Over limit m) (hle : m ≤ n) :
    Over limit n := by
  cases limit with
  | none => exact h
  | some limit => exact Nat.lt_of_lt_of_le h hle

/-- As much from the front of bytes as there is room for. -/
def keep (capacity : Option Nat) (bytes : Bytes) : Bytes :=
  match capacity with
  | none => bytes
  | some capacity => bytes.take capacity

/-- All bytes are kept while there is room for them. -/
theorem keep_eq_self {capacity : Option Nat} {bytes : Bytes} (h : ¬ Over capacity bytes.length) :
    keep capacity bytes = bytes := by
  cases capacity with
  | none => rfl
  | some capacity => exact List.take_of_length_le (Nat.le_of_not_lt h)

/-- Nothing is kept of what comes after the end of the room. -/
theorem keep_append_of_over {capacity : Option Nat} {bytes : Bytes}
    (h : Over capacity bytes.length) (more : Bytes) :
    keep capacity (bytes ++ more) = keep capacity bytes := by
  cases capacity with
  | none => cases h
  | some capacity => exact List.take_append_of_le_length (Nat.le_of_lt h)

/-- The stage of the first piece that ends over the limit, after `n` bytes. -/
def stageOver? (capacity : Option Nat) : Nat → List (Stage × Bytes) → Option Stage
  | _, [] => none
  | n, (stage, bytes) :: pieces =>
    if Over capacity (n + bytes.length) then some stage
    else stageOver? capacity (n + bytes.length) pieces

/-- Some piece ends over the limit if they do together. -/
theorem stageOver?_eq_none_iff {capacity : Option Nat} {n : Nat} (h : ¬ Over capacity n)
    (pieces : List (Stage × Bytes)) :
    stageOver? capacity n pieces = none ↔
      ¬ Over capacity (n + (pieces.flatMap Prod.snd).length) := by
  induction pieces generalizing n with
  | nil => simpa [stageOver?] using h
  | cons piece pieces ih =>
    obtain ⟨stage, bytes⟩ := piece
    rw [stageOver?, List.flatMap_cons, List.length_append, ← Nat.add_assoc]
    split
    · rename_i hover
      have hall := hover.mono (Nat.le_add_right _ (pieces.flatMap Prod.snd).length)
      exact iff_of_false (Option.some_ne_none stage) (not_not_intro hall)
    · rename_i hover
      exact ih hover

/-- Fragments of one stage are over the limit as the whole is. -/
theorem stageOver?_fragments {capacity : Option Nat} {n : Nat} (h : ¬ Over capacity n)
    (stage : Stage) (fragments : List Bytes) :
    stageOver? capacity n (fragments.map (stage, ·)) =
      stageOver? capacity n [(stage, fragments.flatten)] := by
  induction fragments generalizing n with
  | nil =>
    rw [List.map_nil, stageOver?, List.flatten_nil, stageOver?, List.length_nil, Nat.add_zero,
      if_neg h, stageOver?]
  | cons bytes fragments ih =>
    rw [List.map_cons, stageOver?, List.flatten_cons, stageOver?, List.length_append,
      ← Nat.add_assoc]
    by_cases hover : Over capacity (n + bytes.length)
    · rw [if_pos hover, if_pos (hover.mono (Nat.le_add_right ..))]
    · rw [if_neg hover, ih hover]
      rfl

/-! ## One block -/

namespace LimitedSink

variable {capacity flushLimit : Option Nat} {taken : Bytes} {flushesRev : List Nat}

/-- A sink with these limits that was handed bytes and has noted flushes. -/
def taking (capacity flushLimit : Option Nat) (taken : Bytes) (flushesRev : List Nat) :
    LimitedSink where
  capacity := capacity
  flushLimit := flushLimit
  out := (keep capacity taken).toArray
  flushesRev := flushesRev

theorem taking_nil : taking capacity flushLimit [] [] = empty capacity flushLimit := by
  cases capacity <;> simp [taking, empty, keep]

/-- A sink that has refused nothing yet takes all further bytes or, once they are too many, as many
as there is room for. -/
theorem write_taking (h : ¬ Over capacity taken.length) (bytes : Bytes) :
    Sink.write (taking capacity flushLimit taken flushesRev) bytes =
      (taking capacity flushLimit (taken ++ bytes) flushesRev,
        if Over capacity (taken.length + bytes.length) then some .full else none) := by
  show LimitedSink.write _ _ = _
  cases capacity with
  | none => simp [LimitedSink.write, taking, keep, Over]
  | some capacity =>
    have hle : taken.length ≤ capacity := Nat.le_of_not_lt h
    have htaken : taken.take capacity = taken := List.take_of_length_le hle
    have hkept : (taken ++ bytes).take capacity =
        taken ++ bytes.take (capacity - taken.length) := by
      rw [List.take_append, htaken]
    simp only [LimitedSink.write, taking, keep, htaken, hkept, List.size_toArray,
      List.toArray_appendList]
    -- the sink compares with the room that is left, the limit is on the sum
    by_cases hover : Over (some capacity) (taken.length + bytes.length)
    · have hroom : ¬ bytes.length ≤ capacity - taken.length := by
        have : capacity < taken.length + bytes.length := hover
        omega
      rw [if_neg hroom, if_pos hover]
    · have hroom : bytes.length ≤ capacity - taken.length := by
        have : ¬ capacity < taken.length + bytes.length := hover
        omega
      rw [if_pos hroom, if_neg hover]

/-- A sink that cannot be flushed again refuses, any other notes what it holds. -/
theorem flush_eq (sink : LimitedSink) :
    Sink.flush sink =
      if Over sink.flushLimit (sink.flushesRev.length + 1) then (sink, some .flushFailed)
      else ({ sink with flushesRev := sink.out.size :: sink.flushesRev }, none) := by
  show LimitedSink.flush _ = _
  rcases hlimit : sink.flushLimit with _ | limit
  · simp [LimitedSink.flush, hlimit, Over]
  · have hworks : sink.flushesRev.length < limit ↔
        ¬ Over (some limit) (sink.flushesRev.length + 1) := by
      show _ ↔ ¬ limit < sink.flushesRev.length + 1
      omega
    by_cases hover : Over (some limit) (sink.flushesRev.length + 1) <;>
      simp [LimitedSink.flush, hlimit, hworks, hover]

/-- A flush is noted with all bytes taken so far, unless there were too many before it. -/
theorem flush_taking (h : ¬ Over capacity taken.length) :
    Sink.flush (taking capacity flushLimit taken flushesRev) =
      if Over flushLimit (flushesRev.length + 1) then
        (taking capacity flushLimit taken flushesRev, some .flushFailed)
      else (taking capacity flushLimit taken (taken.length :: flushesRev), none) := by
  rw [flush_eq]
  simp only [taking, keep_eq_self h, List.size_toArray]

/-- Pieces are taken like their bytes in one, up to the first that passes the capacity. -/
theorem writePieces_taking (h : ¬ Over capacity taken.length) (pieces : List (Stage × Bytes)) :
    writePieces pieces (taking capacity flushLimit taken flushesRev) =
      (taking capacity flushLimit (taken ++ pieces.flatMap Prod.snd) flushesRev,
        (stageOver? capacity taken.length pieces).map (·, .full)) := by
  induction pieces generalizing taken with
  | nil => simp [writePieces, stageOver?]
  | cons piece pieces ih =>
    obtain ⟨stage, bytes⟩ := piece
    rw [writePieces, write_taking h, stageOver?, List.flatMap_cons, ← List.append_assoc]
    by_cases hover : Over capacity (taken.length + bytes.length)
    · -- what comes after the refusal would not have been kept
      rw [if_pos hover, if_pos hover]
      rw [← List.length_append] at hover
      simp only [taking, keep_append_of_over hover, Option.map_some]
    · rw [if_neg hover, if_neg hover]
      rw [← List.length_append] at hover ⊢
      exact ih hover

/-- It makes no difference to such a sink in how many fragments one stage hands over its bytes. -/
theorem writePieces_fragments (h : ¬ Over capacity taken.length) (stage : Stage)
    (fragments : List Bytes) :
    writePieces (fragments.map (stage, ·)) (taking capacity flushLimit taken flushesRev) =
      writePieces [(stage, fragments.flatten)] (taking capacity flushLimit taken flushesRev) := by
  have hbytes : (fragments.map (stage, ·)).flatMap Prod.snd = fragments.flatten := by
    rw [List.flatMap_map, List.flatMap_id']
  rw [writePieces_taking h, writePieces_taking h, stageOver?_fragments h, hbytes,
    List.flatMap_singleton]

/-- One block is taken as far as there is room for it, and noted if it is flushed. -/
theorem writeBlock_taking (h : ¬ Over capacity taken.length) (format : Format) (block : Block) :
    writeBlock format block (taking capacity flushLimit taken flushesRev) =
      match stageOver? capacity taken.length (block.pieces format) with
      | some stage =>
        (taking capacity flushLimit (taken ++ block.encode format) flushesRev,
          some ⟨block.startLine, stage, .full⟩)
      | none =>
        if Over flushLimit (flushesRev.length + 1) then
          (taking capacity flushLimit (taken ++ block.encode format) flushesRev,
            some ⟨block.startLine, .flush, .flushFailed⟩)
        else
          (taking capacity flushLimit (taken ++ block.encode format)
            ((taken ++ block.encode format).length :: flushesRev), none) := by
  rw [writeBlock, writePieces_taking h]
  rcases hstage : stageOver? capacity taken.length (block.pieces format) with _ | stage
  · have hfits := (stageOver?_eq_none_iff h _).mp hstage
    rw [← List.length_append] at hfits
    simp only [Option.map_none, flush_taking hfits, Block.encode]
    by_cases hflush : Over flushLimit (flushesRev.length + 1)
    · simp only [if_pos hflush]
    · simp only [if_neg hflush]
  · rfl

end LimitedSink

/-! ## All blocks -/

/-- How many bytes the first `i` of blocks take. -/
def sizeOfFirst (format : Format) (blocks : List Block) (i : Nat) : Nat :=
  (encodeAll format (blocks.take i)).length

/-- The sizes that the output has after each of the first `n` of blocks. -/
def ends (format : Format) (blocks : List Block) (n : Nat) : List Nat :=
  (List.range n).map fun i => sizeOfFirst format blocks (i + 1)

@[simp] theorem length_ends (format : Format) (blocks : List Block) (n : Nat) :
    (ends format blocks n).length = n := by
  simp [ends]

/-- Blocks that come later do not count for the first ones. -/
theorem sizeOfFirst_append {format : Format} {blocks : List Block} {i : Nat}
    (h : i ≤ blocks.length) (more : List Block) :
    sizeOfFirst format (blocks ++ more) i = sizeOfFirst format blocks i := by
  rw [sizeOfFirst, List.take_append_of_le_length h, sizeOfFirst]

/-- All blocks together have the size of their encodings. -/
theorem sizeOfFirst_length (format : Format) (blocks : List Block) :
    sizeOfFirst format blocks blocks.length = (encodeAll format blocks).length := by
  rw [sizeOfFirst, List.take_length]

/-- Nor do they change where the first ones end. -/
theorem ends_append {format : Format} {blocks : List Block} {n : Nat} (h : n ≤ blocks.length)
    (more : List Block) : ends format (blocks ++ more) n = ends format blocks n := by
  refine List.map_congr_left fun i hi => ?_
  have hlt : i < n := List.mem_range.mp hi
  exact sizeOfFirst_append (by omega) more

/-- A further block ends where all bytes do. -/
theorem ends_concat (format : Format) (blocks : List Block) (block : Block) :
    ends format (blocks ++ [block]) (blocks.length + 1) =
      ends format blocks blocks.length ++ [(encodeAll format (blocks ++ [block])).length] := by
  have hlast : sizeOfFirst format (blocks ++ [block]) (blocks.length + 1) =
      (encodeAll format (blocks ++ [block])).length := by
    rw [← sizeOfFirst_length, List.length_append, List.length_singleton]
  rw [← ends_append (Nat.le_refl blocks.length) [block], ends, List.range_succ, List.map_append,
    List.map_singleton, hlast]
  rfl

/-- Whether the first `i` of blocks need more room or more flushes than there are. -/
def Overruns (format : Format) (capacity flushLimit : Option Nat) (blocks : List Block) (i : Nat) :
    Prop :=
  Over capacity (sizeOfFirst format blocks i) ∨ Over flushLimit i

instance (format : Format) (capacity flushLimit : Option Nat) (blocks : List Block) (i : Nat) :
    Decidable (Overruns format capacity flushLimit blocks i) :=
  inferInstanceAs (Decidable (_ ∨ _))

/-- The number, counted from one, of the first block that is over a limit. -/
structure FirstOverrun (format : Format) (capacity flushLimit : Option Nat) (blocks : List Block)
    (k : Nat) : Prop where
  pos : 1 ≤ k
  le_length : k ≤ blocks.length
  overruns : Overruns format capacity flushLimit blocks k
  least : ∀ i, 1 ≤ i → i < k → ¬ Overruns format capacity flushLimit blocks i

section

variable {format : Format} {capacity flushLimit : Option Nat} {done : List Block} {block : Block}

/-- The sink after blocks that are within both limits. -/
def LimitedSink.filled (format : Format) (capacity flushLimit : Option Nat) (done : List Block) :
    LimitedSink :=
  taking capacity flushLimit (encodeAll format done) (ends format done done.length).reverse

/-- Blocks within the limits have room together. -/
theorem not_over_of_within
    (h : ∀ i, 1 ≤ i → i ≤ done.length → ¬ Overruns format capacity flushLimit done i) :
    ¬ Over capacity (encodeAll format done).length := by
  intro hover
  rcases List.eq_nil_or_concat done with rfl | ⟨_, _, hdone⟩
  · cases capacity with
    | none => exact hover
    | some capacity => exact Nat.not_lt_zero _ hover
  · have hpos : 1 ≤ done.length := by simp [hdone]
    refine h done.length hpos (Nat.le_refl _) (Or.inl ?_)
    rwa [sizeOfFirst_length]

/-- A further block within the limits is taken and noted. -/
theorem writeBlock_filled_of_within (h : ¬ Over capacity (encodeAll format done).length)
    (hnext : ¬ Over capacity (encodeAll format (done ++ [block])).length)
    (hflush : ¬ Over flushLimit (done.length + 1)) :
    writeBlock format block (LimitedSink.filled format capacity flushLimit done) =
      (LimitedSink.filled format capacity flushLimit (done ++ [block]), none) := by
  have hstage :
      stageOver? capacity (encodeAll format done).length (block.pieces format) = none := by
    rw [stageOver?_eq_none_iff h, ← List.length_append]
    rwa [encodeAll_concat] at hnext
  have hcount : ¬ Over flushLimit ((ends format done done.length).reverse.length + 1) := by
    rwa [List.length_reverse, length_ends]
  have hnoted : (ends format (done ++ [block]) (done ++ [block]).length).reverse =
      (encodeAll format (done ++ [block])).length :: (ends format done done.length).reverse := by
    rw [List.length_append, List.length_singleton, ends_concat, List.reverse_concat]
  rw [LimitedSink.filled, LimitedSink.writeBlock_taking h, hstage, ← encodeAll_concat]
  simp only [if_neg hcount]
  rw [LimitedSink.filled, hnoted]

/-- A run of writes goes on after all blocks that are within the limits. -/
theorem writeBlocks_append_of_within
    (h : ∀ i, 1 ≤ i → i ≤ done.length → ¬ Overruns format capacity flushLimit done i)
    (rest : List Block) :
    writeBlocks format (done ++ rest) (LimitedSink.empty capacity flushLimit) =
      writeFrom format rest (LimitedSink.filled format capacity flushLimit done) done.length := by
  -- by induction on the blocks from the last one on, which is written in the state after the others
  induction done using List.reverseRecOn generalizing rest with
  | nil =>
    rw [LimitedSink.filled, encodeAll_nil, List.length_nil, ends, List.range_zero, List.map_nil,
      List.reverse_nil, LimitedSink.taking_nil]
    rfl
  | append_singleton done block ih =>
    have hdone : ∀ i, 1 ≤ i → i ≤ done.length →
        ¬ Overruns format capacity flushLimit done i := by
      intro i hpos hle hover
      refine h i hpos (by rw [List.length_append]; omega) ?_
      rwa [Overruns, sizeOfFirst_append hle]
    have hlast := h (done.length + 1) (by omega) (by simp)
    rw [Overruns, not_or] at hlast
    have hwrite : writeBlock format block (LimitedSink.filled format capacity flushLimit done) =
        (LimitedSink.filled format capacity flushLimit (done ++ [block]), none) :=
      writeBlock_filled_of_within (not_over_of_within hdone) (not_over_of_within h) hlast.2
    rw [List.append_assoc, ih hdone, List.singleton_append, writeFrom_cons_of_ok hwrite,
      List.length_append, List.length_singleton]

/-! ## The block that fails -/

/-- A block without room fails in its record or in its object, or at least in its newline. -/
theorem exists_stageOver? {n : Nat} (h : Over capacity (n + (block.encode format).length)) :
    ∃ stage, stageOver? capacity n (block.pieces format) = some stage ∧
      stage.context =
        if format = .json ∧ Over capacity (n + (block.encode format).length - 1) then
          "Failed to serialize block: ".toList
        else [] := by
  cases format with
  | records =>
    rw [Block.encode_records] at h
    refine ⟨.record, by rw [Block.pieces, stageOver?, if_pos h], ?_⟩
    rw [Stage.context_record, if_neg fun h => Format.noConfusion h.1]
  | json =>
    have hsize : n + (block.encode .json).length = n + block.object.utf8.length + 1 := by
      rw [Block.encode_json, List.length_append, List.length_singleton, Nat.add_assoc]
    rw [hsize] at h ⊢
    rw [Nat.add_sub_cancel]
    -- if only the last byte has no room, that is the newline
    by_cases hobject : Over capacity (n + block.object.utf8.length)
    · refine ⟨.object, by rw [Block.pieces, stageOver?, if_pos hobject], ?_⟩
      rw [Stage.context_object, if_pos ⟨rfl, hobject⟩]
    · have hnewline : Over capacity (n + block.object.utf8.length + (Text.utf8 ['\n']).length) := by
        rwa [Text.utf8_newline]
      refine ⟨.newline, ?_, ?_⟩
      · rw [Block.pieces, stageOver?, if_neg hobject, stageOver?, if_pos hnewline]
      · rw [Stage.context_newline, if_neg fun h => hobject h.2]

/-- The first block over a limit is taken as far as there is room for it and refused, with a message
that tells a lack of room from a failure to flush. -/
theorem exists_writeBlock_filled_of_over (h : ¬ Over capacity (encodeAll format done).length)
    (hover : Over capacity (encodeAll format (done ++ [block])).length ∨
      Over flushLimit (done.length + 1)) :
    ∃ e : WriteError,
      writeBlock format block (LimitedSink.filled format capacity flushLimit done) =
        (LimitedSink.taking capacity flushLimit (encodeAll format (done ++ [block]))
            (ends format done done.length).reverse,
          some e) ∧
      e.message =
        "Failed to write block at line ".toList ++ Text.ofNat block.startLine ++ ": ".toList ++
          if Over capacity (encodeAll format (done ++ [block])).length then
            (if format = .json ∧
                Over capacity ((encodeAll format (done ++ [block])).length - 1) then
              "Failed to serialize block: ".toList
            else []) ++ "sink full".toList
          else "Failed to write output: flush failed".toList := by
  rw [LimitedSink.filled, LimitedSink.writeBlock_taking h, encodeAll_concat]
  -- a lack of room is met before the flush, so it is the one reported
  by_cases hroom : Over capacity (encodeAll format done ++ block.encode format).length
  · rw [if_pos hroom]
    rw [List.length_append] at hroom ⊢
    obtain ⟨stage, hstage, hcontext⟩ := exists_stageOver? hroom
    refine ⟨⟨block.startLine, stage, .full⟩, by rw [hstage], ?_⟩
    rw [WriteError.message_eq, context_message_full, hcontext]
  · rw [if_neg hroom]
    rw [encodeAll_concat] at hover
    have hflush : Over flushLimit ((ends format done done.length).reverse.length + 1) := by
      rw [List.length_reverse, length_ends]
      exact hover.resolve_left hroom
    have hstage :
        stageOver? capacity (encodeAll format done).length (block.pieces format) = none := by
      rw [stageOver?_eq_none_iff h, ← List.length_append]
      exact hroom
    refine ⟨⟨block.startLine, .flush, .flushFailed⟩, by rw [hstage, if_pos hflush], ?_⟩
    rw [WriteError.message_eq, context_message_flushFailed]

end

/-- What is kept of bytes is their front up to the capacity or, if that is less, all of them. -/
theorem keep_eq_take (capacity : Option Nat) (bytes : Bytes) :
    keep capacity bytes = bytes.take (capacity.elim bytes.length (min · bytes.length)) := by
  cases capacity with
  | none => exact List.take_length.symm
  | some capacity =>
    show bytes.take capacity = bytes.take (min capacity bytes.length)
    rw [← List.take_take, List.take_length]

/-- **The first block over a limit decides a run of writes.** Without one, all blocks are written,
one after the other, each is flushed, and they are counted. Otherwise that block is drawn and no
other, as much of it is written as there is room for, and it is reported with its start line and the
cause: that the sink is full, in the object of a JSON line if not even that has room, or that the
flush failed. All blocks before it are written and flushed. -/
theorem writeBlocks_limited (format : Format) (blocks : List Block)
    (capacity flushLimit : Option Nat) :
    ((∀ i, 1 ≤ i → i ≤ blocks.length → ¬ Overruns format capacity flushLimit blocks i) →
      let report := writeBlocks format blocks (LimitedSink.empty capacity flushLimit)
      report.result = .ok blocks.length ∧
        report.sink.out.toList = encodeAll format blocks ∧
        report.sink.flushes = ends format blocks blocks.length ∧
        report.drawn = blocks.length) ∧
    ∀ k, FirstOverrun format capacity flushLimit blocks k →
      let report := writeBlocks format blocks (LimitedSink.empty capacity flushLimit)
      let size := sizeOfFirst format blocks k
      ∃ block e, blocks[k - 1]? = some block ∧ report.result = .error e ∧
        e.message =
          "Failed to write block at line ".toList ++ Text.ofNat block.startLine ++ ": ".toList ++
            (if Over capacity size then
              (if format = .json ∧ Over capacity (size - 1) then
                "Failed to serialize block: ".toList
              else []) ++ "sink full".toList
            else "Failed to write output: flush failed".toList) ∧
        report.drawn = k ∧
        report.sink.flushes = ends format blocks (k - 1) ∧
        report.sink.out.toList =
          (encodeAll format (blocks.take k)).take (capacity.elim size (min · size)) := by
  constructor
  · intro h
    have hrun := writeBlocks_append_of_within h []
    rw [List.append_nil, writeFrom_nil] at hrun
    rw [hrun]
    refine ⟨rfl, keep_eq_self (not_over_of_within h), ?_, rfl⟩
    exact List.reverse_reverse _
  · rintro k ⟨hpos, hle, hover, hleast⟩
    -- the blocks before the `k`-th, itself, and the rest
    obtain ⟨j, rfl⟩ : ∃ j, k = j + 1 := ⟨k - 1, by omega⟩
    obtain ⟨done, block, rest, rfl, rfl⟩ :
        ∃ done block rest, blocks = done ++ block :: rest ∧ done.length = j :=
      ⟨blocks.take j, blocks[j], blocks.drop (j + 1), by simp, by simp; omega⟩
    have htake : (done ++ block :: rest).take (done.length + 1) = done ++ [block] :=
      List.take_length_add_append 1
    have hwithin : ∀ i, 1 ≤ i → i ≤ done.length →
        ¬ Overruns format capacity flushLimit done i := by
      intro i hi hdone
      have := hleast i hi (by omega)
      rwa [Overruns, sizeOfFirst_append hdone] at this
    rw [Overruns, sizeOfFirst, htake] at hover
    obtain ⟨e, hwrite, hmessage⟩ :=
      exists_writeBlock_filled_of_over (not_over_of_within hwithin) hover
    rw [writeBlocks_append_of_within hwithin, writeFrom_cons_of_error hwrite, sizeOfFirst, htake]
    refine ⟨block, e, by simp, rfl, hmessage, rfl, ?_, keep_eq_take ..⟩
    rw [Nat.add_sub_cancel, ends_append (Nat.le_refl _)]
    exact List.reverse_reverse _

/-- A sink with room and flushes for everything, one that has no room for the last newline, and one
that is full to the last byte and cannot be flushed a second time. -/
theorem writeBlocks_limited_thrice :
    let blocks : List Block := [⟨7, ['é'], ['a', '\n', 'b']⟩, ⟨12, [], ['"', '\t']⟩]
    let json := writeBlocks .json blocks (LimitedSink.empty (some 102) none)
    let records := writeBlocks .records blocks (LimitedSink.empty (some 16) (some 1))
    ((∀ i, 1 ≤ i → i ≤ 2 → ¬ Overruns .json (some 103) (some 2) blocks i) ∧
      FirstOverrun .json (some 102) none blocks 2 ∧
      FirstOverrun .records (some 16) (some 1) blocks 2) ∧
    (writeBlocks .json blocks (LimitedSink.empty (some 103) (some 2))).sink.flushes = [52, 103] ∧
    (json.sink.flushes = [52] ∧ json.sink.out.toList.length = 102 ∧
      ∃ e, json.result = .error e ∧
        e.message = "Failed to write block at line 12: sink full".toList) ∧
    records.sink.flushes = [9] ∧ records.sink.out.toList.length = 16 ∧
      ∃ e, records.result = .error e ∧
        e.message =
          "Failed to write block at line 12: Failed to write output: flush failed".toList := by
  intro blocks json records
  have hwithin : ∀ i, 1 ≤ i → i ≤ 2 → ¬ Overruns .json (some 103) (some 2) blocks i := by
    intro i hpos hle
    obtain rfl | rfl : i = 1 ∨ i = 2 := by omega
    all_goals decide +kernel
  have hnewline : FirstOverrun .json (some 102) none blocks 2 := by
    refine ⟨by decide, by decide, by decide +kernel, fun i hpos hlt => ?_⟩
    obtain rfl : i = 1 := by omega
    decide +kernel
  have hflush : FirstOverrun .records (some 16) (some 1) blocks 2 := by
    refine ⟨by decide, by decide, by decide +kernel, fun i hpos hlt => ?_⟩
    obtain rfl : i = 1 := by omega
    decide +kernel
  obtain ⟨-, -, hends, -⟩ := (writeBlocks_limited .json blocks (some 103) (some 2)).1 hwithin
  obtain ⟨_, e, ⟨⟩, hresult, hmessage, -, hends', hout⟩ :=
    (writeBlocks_limited .json blocks (some 102) none).2 2 hnewline
  obtain ⟨_, e', ⟨⟩, hresult', hmessage', -, hends'', hout'⟩ :=
    (writeBlocks_limited .records blocks (some 16) (some 1)).2 2 hflush
  refine ⟨⟨hwithin, hnewline, hflush⟩, hends.trans (by decide +kernel), ⟨?_, ?_, e, hresult, ?_⟩,
    ?_, ?_, e', hresult', ?_⟩
  · exact hends'.trans (by decide +kernel)
  · exact (congrArg List.length hout).trans (by decide +kernel)
  · exact hmessage.trans (by decide +kernel)
  · exact hends''.trans (by decide +kernel)
  · exact (congrArg List.length hout').trans (by decide +kernel)
  · exact hmessage'.trans (by decide +kernel)

/-! ## Without limits -/

/-- Without limits nothing is too much. -/
theorem not_overruns_none (format : Format) (blocks : List Block) (i : Nat) :
    ¬ Overruns format none none blocks i := by
  rintro (hover | hover) <;> exact hover

/-- Where there are no limits, all blocks are written and counted. -/
theorem writeBlocks_unlimited (format : Format) (blocks : List Block) :
    let report := writeBlocks format blocks LimitedSink.unlimited
    report.result = .ok blocks.length ∧ report.sink.out.toList = encodeAll format blocks := by
  have hrun : writeBlocks format (blocks ++ []) LimitedSink.unlimited = _ :=
    writeBlocks_append_of_within (fun i _ _ => not_overruns_none format blocks i) []
  rw [List.append_nil, writeFrom_nil] at hrun
  rw [hrun]
  exact ⟨rfl, rfl⟩

/-- The same of the blocks that any source gives. -/
theorem writeBlocks_unlimited_drain {σ : Type} [BlockSource σ] (format : Format) (source : σ) :
    let blocks := (BlockSource.drain source).1
    let report := writeBlocks format source LimitedSink.unlimited
    report.result = .ok blocks.length ∧ report.sink.out.toList = encodeAll format blocks := by
  intro blocks report
  obtain ⟨hresult, hout⟩ := writeBlocks_unlimited format blocks
  have hlist := writeFrom_drain format source LimitedSink.unlimited 0
  constructor
  · exact hlist.result.trans hresult
  · exact (congrArg (fun sink => sink.out.toList) hlist.sink).trans hout

end FencedCode
