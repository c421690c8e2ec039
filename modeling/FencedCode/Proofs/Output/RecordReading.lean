import FencedCode.Proofs.Output.Records

/-!
# Reading records

A program that is given records cuts them apart after each NUL, cuts each at its first two tabs, and
takes the first field for a decimal number. It gets the blocks back that were written if none holds
a NUL and no attributes hold a tab, whatever else they hold (`decode?_writeBlocks_records`).
-/
namespace FencedCode

/-! ## The reader -/

namespace Records

/-- What stands before the first tab and after it, if there is one. -/
def cutTab? (text : Text) : Option (Text × Text) :=
  let rest := text.dropWhile (· != '\t')
  if rest.isEmpty then none else some (text.takeWhile (· != '\t'), rest.drop 1)

/-- The number that a field stands for: decimal digits, with or without a plus sign, for a number of
at most 64 bits. -/
def number? (field : Text) : Option Nat :=
  let digits := if field.head? = some '+' then field.drop 1 else field
  let value := Nat.ofDigitChars 10 digits 0
  if !digits.isEmpty && digits.all Char.isDigit && value < UInt64.size then some value else none

/-- The block of one record, given without its NUL. The content is all that follows the second tab.
-/
def block? (record : Text) : Option Block := do
  let (line, rest) ← cutTab? record
  let startLine ← number? line
  let (attributes, content) ← cutTab? rest
  some ⟨startLine, attributes, content⟩

/-- The records of a text, without the NULs after them. The last one may lack its NUL. -/
def split (text : Text) : List Text :=
  (cutAfter '\x00' text).map (List.takeWhile (· != '\x00'))

/-- The blocks of all records, if each has its three fields. -/
def decode? (bytes : Bytes) : Option (List Block) :=
  bytes.text?.bind fun text => (split text).mapM block?

/-- Tabs and newlines in a content, a sign and zeros before a number, and a record without a NUL. -/
example :
    decode? (Text.utf8 "1\ta,b\t\n\t\x00+07\t\t".toList) =
      some [⟨1, ['a', ',', 'b'], ['\n', '\t']⟩, ⟨7, [], []⟩] := by
  decide +kernel

/-! ## Fields -/

/-- A text without tabs ends at the tab that follows it. -/
theorem cutTab?_append {front : Text} (h : '\t' ∉ front) (rest : Text) :
    cutTab? (front ++ '\t' :: rest) = some (front, rest) := by
  have hfront : ∀ c ∈ front, (c != '\t') = true := fun c hc => bne_iff_ne.mpr fun he => h (he ▸ hc)
  rw [cutTab?, List.takeWhile_append_of_pos hfront, List.dropWhile_append_of_pos hfront]
  simp

/-- The digits of a number of 64 bits stand for it. -/
theorem number?_ofNat {n : Nat} (h : n < UInt64.size) : number? (Text.ofNat n) = some n := by
  have hdigits : (Text.ofNat n).all Char.isDigit = true :=
    List.all_eq_true.mpr fun c => Text.isDigit_of_mem_ofNat
  have hsign : '+' ∉ Text.ofNat n := Text.not_mem_ofNat rfl n
  have hhead : (Text.ofNat n).head? ≠ some '+' := fun he => hsign (List.mem_of_head? he)
  obtain ⟨d, ds, hcons, -⟩ := Text.exists_ofNat_eq_cons n
  have hnonempty : (Text.ofNat n).isEmpty = false := by rw [hcons]; rfl
  simp only [number?, if_neg hhead, hnonempty, hdigits, Text.ofDigitChars_ofNat, h]
  rfl

end Records

/-! ## Records that can be read -/

/-- A block whose record can be read: the line has a number of 64 bits, and no delimiter stands
where it would be taken for the end of a field or of the record. -/
structure Block.FitsRecord (block : Block) : Prop where
  startLine : block.startLine < UInt64.size
  tabFree : '\t' ∉ block.attributes
  nulFree : block.NulFree

instance (block : Block) : Decidable block.FitsRecord :=
  decidable_of_iff (block.startLine < UInt64.size ∧ '\t' ∉ block.attributes ∧ block.NulFree)
    ⟨fun h => ⟨h.1, h.2.1, h.2.2⟩, fun h => ⟨h.startLine, h.tabFree, h.nulFree⟩⟩

namespace Records

section

variable {block : Block} {blocks : List Block}

/-- The fields of a block are read back. -/
theorem block?_fields (h : block.FitsRecord) : block? block.fields = some block := by
  have hdigits : '\t' ∉ Text.ofNat block.startLine := Text.not_mem_ofNat rfl _
  simp only [block?, Block.fields, cutTab?_append hdigits, cutTab?_append h.tabFree,
    number?_ofNat h.startLine, Option.bind_eq_bind, Option.bind_some]

/-- Without NULs in the records, the NULs are the ends of them. -/
theorem split_flatMap {records : List Text} (h : ∀ record ∈ records, '\x00' ∉ record) :
    split (records.flatMap (· ++ ['\x00'])) = records := by
  rw [split, cutAfter_flatMap h, List.map_map]
  refine (List.map_congr_left fun record hrecord => ?_).trans (List.map_id records)
  have hnul : ∀ c ∈ record, (c != '\x00') = true :=
    fun c hc => bne_iff_ne.mpr fun he => h record hrecord (he ▸ hc)
  show (record ++ ['\x00']).takeWhile _ = record
  rw [List.takeWhile_append_of_pos hnul]
  exact List.append_nil record

/-- The blocks that were written are read back, all of them and in order. -/
theorem decode?_encodeAll (h : ∀ block ∈ blocks, block.FitsRecord) :
    decode? (encodeAll .records blocks) = some blocks := by
  have hnul : ∀ record ∈ blocks.map Block.fields, '\x00' ∉ record := by
    intro record hrecord
    obtain ⟨block, hblock, rfl⟩ := List.mem_map.mp hrecord
    exact (h block hblock).nulFree.fields
  rw [decode?, encodeAll_records, Bytes.text?_utf8, Option.bind_some, split_flatMap hnul]
  exact mapM_map_eq_some fun block hblock => block?_fields (h block hblock)

/-! ## Octets -/

/-- A NUL is one octet. -/
theorem utf8_nul : Text.utf8 ['\x00'] = [0] := by
  decide +kernel

/-- There is one NUL to a block. -/
theorem count_nul_encodeAll (h : ∀ block ∈ blocks, block.NulFree) :
    (encodeAll .records blocks).count 0 = blocks.length := by
  have hparts : encodeAll .records blocks =
      (blocks.map fun block => block.fields.utf8).flatMap (· ++ [0]) := by
    rw [encodeAll, List.flatMap_map]
    refine List.flatMap_congr fun block _ => ?_
    rw [Block.encode_records, Block.record_eq, Text.utf8_append, utf8_nul]
  have hnul : ∀ part ∈ blocks.map fun block => block.fields.utf8, (0 : UInt8) ∉ part := by
    intro part hpart hmem
    obtain ⟨block, hblock, rfl⟩ := List.mem_map.mp hpart
    have hchar : '\x00' ∈ block.fields := (Text.octet_mem_utf8_iff (by decide) _).mp hmem
    exact (h block hblock).fields hchar
  rw [hparts, count_flatMap_terminated hnul, List.length_map]

end

end Records

/-- **Records are read back where they can be.** Blocks without NULs, whose attributes hold no tabs
either, are all written, and what is read from the output is the list of them. There is one NUL to a
block. -/
theorem decode?_writeBlocks_records (blocks : List Block)
    (h : ∀ block ∈ blocks, block.FitsRecord) :
    let report := writeBlocks .records blocks LimitedSink.unlimited
    let out := report.sink.out.toList
    report.result = .ok blocks.length ∧ Records.decode? out = some blocks ∧
      out.count 0 = blocks.length := by
  intro report out
  obtain ⟨hresult, hout⟩ : report.result = _ ∧ out = _ := writeBlocks_unlimited .records blocks
  refine ⟨hresult, ?_, ?_⟩
  · rw [hout, Records.decode?_encodeAll h]
  · rw [hout, Records.count_nul_encodeAll fun block hblock => (h block hblock).nulFree]

/-- The greatest start line, empty fields, and tabs and newlines in a content. -/
theorem decode?_writeBlocks_records_greatest :
    let blocks : List Block :=
      [⟨UInt64.size - 1, [], ['\t', 'a', '\n', '\t']⟩, ⟨0, [], []⟩, ⟨10, ['é', ','], ['\n']⟩]
    let out := (writeBlocks .records blocks LimitedSink.unlimited).sink.out.toList
    (∀ block ∈ blocks, block.FitsRecord) ∧
      out = Text.utf8 ("18446744073709551615\t\t\ta\n\t\x00".toList ++ "0\t\t\x00".toList ++
        "10\té,\t\n\x00".toList) ∧
      Records.decode? out = some blocks ∧ out.count 0 = 3 := by
  intro blocks out
  have hfits : ∀ block ∈ blocks, block.FitsRecord := by decide +kernel
  obtain ⟨-, hdecode, hcount⟩ := decode?_writeBlocks_records blocks hfits
  exact ⟨hfits, by decide +kernel, hdecode, hcount⟩

end FencedCode
