import FencedCode.Proofs.Output.Drawing
import FencedCode.Proofs.Output.JsonLines

/-!
# Writing to a full device

What becomes of a run of writes to a device that refuses every byte, behind a line buffer. Bytes
wait in the buffer until they complete a line or are too many, and then the write is refused; bytes
that still wait are refused by the flush. As no block is encoded without bytes, none gets past the
flush: the first block is refused in one stage or another (`writeBlock_empty`), and it is the only
one that is drawn (`writeBlocks_full`). The size of the buffer and the newlines in the block decide
in which stage it is (`stageRefused`), and nothing else.
-/
namespace FencedCode

namespace FullDevice

/-! ## Writes -/

section

variable {device : FullDevice} {stage : Stage} {bytes : Bytes}

/-- Bytes that cannot wait in the buffer: they complete a line or do not fit. -/
def Refuses (device : FullDevice) (bytes : Bytes) : Prop :=
  10 ∈ bytes ∨ device.capacity < device.waiting + bytes.length

/-- The device with further bytes in the buffer. -/
def hold (device : FullDevice) (bytes : Bytes) : FullDevice :=
  { device with waiting := device.waiting + bytes.length }

theorem refuses_iff :
    device.Refuses bytes ↔
      (bytes.contains 10 || device.capacity < device.waiting + bytes.length) = true := by
  rw [Refuses, Bool.or_eq_true, List.contains_iff_mem, decide_eq_true_eq]

instance (device : FullDevice) (bytes : Bytes) : Decidable (device.Refuses bytes) :=
  decidable_of_iff _ refuses_iff.symm

/-- Bytes that cannot wait are refused, and the device is as before. -/
theorem write_of_refuses (h : device.Refuses bytes) :
    Sink.write device bytes = (device, some .noSpace) :=
  if_pos (refuses_iff.mp h)

/-- Bytes that can wait do. -/
theorem write_of_not_refuses (h : ¬ device.Refuses bytes) :
    Sink.write device bytes = (device.hold bytes, none) :=
  if_neg (mt refuses_iff.mpr h)

/-- Nothing gets past the flush while bytes wait. -/
theorem flush_of_waiting (h : device.waiting ≠ 0) :
    Sink.flush device = (device, some .noSpace) :=
  if_neg h

/-- A piece that is refused ends the write in its stage. -/
theorem writePieces_cons_of_refuses (h : device.Refuses bytes) (pieces : List (Stage × Bytes)) :
    writePieces ((stage, bytes) :: pieces) device = (device, some (stage, .noSpace)) := by
  rw [writePieces, write_of_refuses h]

/-- A piece that can wait leaves less room for the others. -/
theorem writePieces_cons_of_not_refuses (h : ¬ device.Refuses bytes)
    (pieces : List (Stage × Bytes)) :
    writePieces ((stage, bytes) :: pieces) device = writePieces pieces (device.hold bytes) := by
  rw [writePieces, write_of_not_refuses h]

/-- A part that is refused is refused with what comes after it, and what comes after it is refused
in the buffer that holds the part. -/
theorem refuses_append (device : FullDevice) (bytes more : Bytes) :
    device.Refuses (bytes ++ more) ↔
      device.Refuses bytes ∨ (device.hold bytes).Refuses more := by
  have hroom : device.capacity < device.waiting + (bytes.length + more.length) ↔
      device.capacity < device.waiting + bytes.length ∨
        device.capacity < device.waiting + bytes.length + more.length := by
    omega
  simp only [Refuses, hold, List.mem_append, List.length_append, hroom]
  exact or_or_or_comm

/-- It makes no difference to the device in how many fragments one stage hands over its bytes. -/
theorem writePieces_fragments (h : device.waiting ≤ device.capacity) (stage : Stage)
    (fragments : List Bytes) :
    (writePieces (fragments.map (stage, ·)) device).2 =
      (writePieces [(stage, fragments.flatten)] device).2 := by
  induction fragments generalizing device with
  | nil =>
    have hwaits : ¬ device.Refuses [] := by
      simpa [Refuses] using h
    rw [List.flatten_nil, writePieces_cons_of_not_refuses hwaits]
    rfl
  | cons bytes fragments ih =>
    rw [List.map_cons, List.flatten_cons]
    -- the first fragment is refused, or those after it decide in the room that it leaves
    by_cases hbytes : device.Refuses bytes
    · rw [writePieces_cons_of_refuses hbytes,
        writePieces_cons_of_refuses ((refuses_append ..).mpr (Or.inl hbytes))]
    · have hfits : (device.hold bytes).waiting ≤ (device.hold bytes).capacity := by
        have := not_or.mp hbytes
        simp only [hold]
        omega
      rw [writePieces_cons_of_not_refuses hbytes, ih hfits]
      by_cases hrest : (device.hold bytes).Refuses fragments.flatten
      · rw [writePieces_cons_of_refuses hrest,
          writePieces_cons_of_refuses ((refuses_append ..).mpr (Or.inr hrest))]
      · have hall : ¬ device.Refuses (bytes ++ fragments.flatten) := by
          rw [refuses_append]
          exact not_or.mpr ⟨hbytes, hrest⟩
        rw [writePieces_cons_of_not_refuses hrest, writePieces_cons_of_not_refuses hall]
        rfl

end

end FullDevice

/-! ## One block -/

/-- The stage in which a full device refuses a block, behind an empty buffer of the given size. A
record that can wait is refused by the flush; after an object that can wait its newline is. -/
def stageRefused (buffer : Nat) (block : Block) : Format → Stage
  | .records =>
    if '\n' ∈ block.record ∨ buffer < block.record.utf8.length then .record else .flush
  | .json => if buffer < block.object.utf8.length then .object else .newline

/-- A record is refused for a newline in it or for its size. -/
theorem refuses_record_iff {buffer : Nat} {block : Block} :
    (FullDevice.empty buffer).Refuses block.record.utf8 ↔
      '\n' ∈ block.record ∨ buffer < block.record.utf8.length := by
  have hnewline : 10 ∈ block.record.utf8 ↔ '\n' ∈ block.record :=
    Text.octet_mem_utf8_iff (d := '\n') (by decide) _
  rw [FullDevice.Refuses, hnewline, FullDevice.empty, Nat.zero_add]

/-- An object holds no newline, so it is refused exactly if it does not fit. -/
theorem refuses_object_iff {buffer : Nat} {block : Block} :
    (FullDevice.empty buffer).Refuses block.object.utf8 ↔ buffer < block.object.utf8.length := by
  rw [FullDevice.Refuses, or_iff_right block.newline_not_mem_object, FullDevice.empty, Nat.zero_add]

/-- A record ends in a NUL, so it is not empty. -/
theorem length_record_pos (block : Block) : 0 < block.record.utf8.length := by
  have hnul : (0 : UInt8) ∈ block.record.utf8 :=
    (Text.octet_mem_utf8_iff (d := '\x00') (by decide) _).mpr
      (List.mem_append_right _ List.mem_cons_self)
  exact List.length_pos_of_mem hnul

/-- **No block gets through.** A full device refuses every block, whatever the size of the buffer.
-/
theorem writeBlock_empty (format : Format) (buffer : Nat) (block : Block) :
    ∃ after, writeBlock format block (FullDevice.empty buffer) =
      (after, some ⟨block.startLine, stageRefused buffer block format, .noSpace⟩) := by
  cases format with
  | records =>
    by_cases hrecord : (FullDevice.empty buffer).Refuses block.record.utf8
    · refine ⟨FullDevice.empty buffer, ?_⟩
      rw [writeBlock, Block.pieces, FullDevice.writePieces_cons_of_refuses hrecord, stageRefused,
        if_pos (refuses_record_iff.mp hrecord)]
    · -- the record waits, and the flush cannot pass it on
      have hwaiting : ((FullDevice.empty buffer).hold block.record.utf8).waiting ≠ 0 := by
        have := length_record_pos block
        simp only [FullDevice.hold, FullDevice.empty]
        omega
      refine ⟨(FullDevice.empty buffer).hold block.record.utf8, ?_⟩
      rw [writeBlock, Block.pieces, FullDevice.writePieces_cons_of_not_refuses hrecord, writePieces,
        stageRefused, if_neg (mt refuses_record_iff.mpr hrecord)]
      simp only [FullDevice.flush_of_waiting hwaiting]
  | json =>
    by_cases hobject : (FullDevice.empty buffer).Refuses block.object.utf8
    · refine ⟨FullDevice.empty buffer, ?_⟩
      rw [writeBlock, Block.pieces, FullDevice.writePieces_cons_of_refuses hobject, stageRefused,
        if_pos (refuses_object_iff.mp hobject)]
    · -- the object waits until the newline completes the line
      have hnewline : ((FullDevice.empty buffer).hold block.object.utf8).Refuses
          (Text.utf8 ['\n']) := by
        rw [Text.utf8_newline]
        exact Or.inl (List.mem_singleton_self 10)
      refine ⟨(FullDevice.empty buffer).hold block.object.utf8, ?_⟩
      rw [writeBlock, Block.pieces, FullDevice.writePieces_cons_of_not_refuses hobject,
        FullDevice.writePieces_cons_of_refuses hnewline, stageRefused,
        if_neg (mt refuses_object_iff.mpr hobject)]

/-! ## All blocks -/

section

variable {σ : Type} [BlockSource σ] {source rest : σ}

/-- Without blocks nothing is refused. -/
theorem writeBlocks_full_of_none (format : Format) (buffer : Nat)
    (h : BlockSource.next source = (none, rest)) :
    writeBlocks format source (FullDevice.empty buffer) =
      ⟨.ok 0, FullDevice.empty buffer, rest, 0⟩ :=
  writeFrom_of_next_none h

/-- The first block of a source is refused, and no other is drawn. -/
theorem writeBlocks_full_of_some (format : Format) (buffer : Nat) {block : Block}
    (h : BlockSource.next source = (some block, rest)) :
    ∃ after, writeBlocks format source (FullDevice.empty buffer) =
      ⟨.error ⟨block.startLine, stageRefused buffer block format, .noSpace⟩, after, rest, 1⟩ := by
  obtain ⟨after, hwrite⟩ := writeBlock_empty format buffer block
  exact ⟨after, writeFrom_of_error h hwrite⟩

end

end FencedCode
