import FencedCode.Proofs.Output.Limits
import FencedCode.Proofs.Text.Terminated
import FencedCode.Proofs.Text.Written
import FencedCode.Scan.Scanner
import Mathlib.Data.List.Forall2

/-!
# What records give away

A record holds the fields of a block as they stand, so its delimiters mean what they should only
where they are in no field. Without a NUL in a block, the output gives the records back one by one,
and with them the start lines and the text after each; where the attributes hold no tab either, that
text gives back the attributes and the content (`extractBlocks_eq_of_records_eq`). A NUL in a
content is written like any other character and reads as the end of a record, so that two documents
with different blocks can have the same output (`records_not_injective`).
-/
namespace FencedCode

/-! ## One record -/

namespace Block

/-- The fields of a block between tabs: its record without the NUL at the end. -/
def fields (block : Block) : Text :=
  Text.ofNat block.startLine ++ '\t' :: (block.attributes ++ '\t' :: block.content)

/-- A record is its fields and a NUL. -/
theorem record_eq (block : Block) : block.record = block.fields ++ ['\x00'] := by
  simp [record, fields]

/-- A block that holds no NUL. -/
structure NulFree (block : Block) : Prop where
  attributes : '\x00' ∉ block.attributes
  content : '\x00' ∉ block.content

instance (block : Block) : Decidable block.NulFree :=
  decidable_of_iff ('\x00' ∉ block.attributes ∧ '\x00' ∉ block.content)
    ⟨fun h => ⟨h.1, h.2⟩, fun h => ⟨h.attributes, h.content⟩⟩

/-- Fields hold a NUL only if the attributes or the content do. -/
theorem NulFree.fields {block : Block} (h : block.NulFree) : '\x00' ∉ block.fields := by
  have hdigits : '\x00' ∉ Text.ofNat block.startLine := Text.not_mem_ofNat rfl _
  simp [Block.fields, hdigits, h.attributes, h.content]

/-- Two blocks whose records are the same up to where the attributes end. -/
structure SameFields (block other : Block) : Prop where
  startLine : block.startLine = other.startLine
  rest : block.attributes ++ '\t' :: block.content = other.attributes ++ '\t' :: other.content

/-- No digit is a tab, so the first tab ends the start line. -/
theorem sameFields_of_fields_eq {block other : Block} (h : block.fields = other.fields) :
    block.SameFields other := by
  have htab (n : Nat) : '\t' ∉ Text.ofNat n := Text.not_mem_ofNat rfl n
  obtain ⟨hdigits, hrest⟩ := append_cons_inj_of_not_mem (htab _) (htab _) h
  exact ⟨Text.ofNat_injective hdigits, hrest⟩

/-- Without tabs in the attributes, the next tab ends them. -/
theorem SameFields.eq {block other : Block} (h : block.SameFields other)
    (hblock : '\t' ∉ block.attributes) (hother : '\t' ∉ other.attributes) : block = other := by
  obtain ⟨hattributes, hcontent⟩ := append_cons_inj_of_not_mem hblock hother h.rest
  cases block
  cases other
  cases h.startLine
  cases hattributes
  cases hcontent
  rfl

end Block

/-! ## All records -/

section

variable {blocks others : List Block}

/-- All records are written one after the other, a NUL after each. -/
theorem encodeAll_records (blocks : List Block) :
    encodeAll .records blocks = Text.utf8 ((blocks.map Block.fields).flatMap (· ++ ['\x00'])) := by
  induction blocks with
  | nil => rfl
  | cons block blocks ih =>
    rw [List.map_cons, List.flatMap_cons, Text.utf8_append, ← ih, ← Block.record_eq,
      ← Block.encode_records]
    rfl

/-- Without NULs in the blocks, the NULs of the output are the ends of the records. -/
theorem map_fields_eq_of_encodeAll_eq (hblocks : ∀ block ∈ blocks, block.NulFree)
    (hothers : ∀ other ∈ others, other.NulFree)
    (h : encodeAll .records blocks = encodeAll .records others) :
    blocks.map Block.fields = others.map Block.fields := by
  have hcut {blocks : List Block} (hblocks : ∀ block ∈ blocks, block.NulFree) :
      cutAfter '\x00' ((blocks.map Block.fields).flatMap (· ++ ['\x00'])) =
        (blocks.map Block.fields).map (· ++ ['\x00']) := by
    refine cutAfter_flatMap fun part hpart => ?_
    obtain ⟨block, hblock, rfl⟩ := List.mem_map.mp hpart
    exact (hblocks block hblock).fields
  -- the octets give the texts, and a cut after each NUL gives the fields
  rw [encodeAll_records, encodeAll_records] at h
  have hparts := congrArg (cutAfter '\x00') (Text.utf8_injective h)
  rw [hcut hblocks, hcut hothers] at hparts
  exact List.map_injective_iff.mpr (List.append_left_injective ['\x00']) hparts

/-- Without NULs in the blocks the records can be cut apart, so equal bytes come from equal fields.
-/
theorem forall₂_sameFields_of_encodeAll_eq (hblocks : ∀ block ∈ blocks, block.NulFree)
    (hothers : ∀ other ∈ others, other.NulFree)
    (h : encodeAll .records blocks = encodeAll .records others) :
    List.Forall₂ Block.SameFields blocks others := by
  have hfields := map_fields_eq_of_encodeAll_eq hblocks hothers h
  rw [← List.forall₂_eq_eq_eq, List.forall₂_map_left_iff, List.forall₂_map_right_iff] at hfields
  exact hfields.imp fun _ _ => Block.sameFields_of_fields_eq

/-- Without tabs in the attributes the fields can be cut apart as well. -/
theorem eq_of_forall₂_sameFields (h : List.Forall₂ Block.SameFields blocks others)
    (hblocks : ∀ block ∈ blocks, '\t' ∉ block.attributes)
    (hothers : ∀ other ∈ others, '\t' ∉ other.attributes) : blocks = others := by
  induction h with
  | nil => rfl
  | cons hfirst _ ih =>
    obtain ⟨hblock, hblocks⟩ := List.forall_mem_cons.mp hblocks
    obtain ⟨hother, hothers⟩ := List.forall_mem_cons.mp hothers
    rw [hfirst.eq hblock hother, ih hblocks hothers]

end

/-! ## The records of documents -/

/-- What is written, as records, of the blocks of a text. -/
def recordsOf (text : Text) (language : Language) : Bytes :=
  (writeBlocks .records (extractBlocks text language) LimitedSink.unlimited).sink.out.toList

theorem recordsOf_eq (text : Text) (language : Language) :
    recordsOf text language = encodeAll .records (extractBlocks text language) :=
  (writeBlocks_unlimited .records (extractBlocks text language)).2

/-- **Records without NULs can be told apart.** If no block of two texts holds a NUL, the same
output means as many blocks in both, with the same start lines and the same text after each; and if
no attributes hold a tab either, it means the same blocks. -/
theorem extractBlocks_eq_of_records_eq (language : Language) (p q : Text)
    (hp : ∀ block ∈ extractBlocks p language, block.NulFree)
    (hq : ∀ block ∈ extractBlocks q language, block.NulFree)
    (h : recordsOf p language = recordsOf q language) :
    List.Forall₂ Block.SameFields (extractBlocks p language) (extractBlocks q language) ∧
      ((∀ block ∈ extractBlocks p language ++ extractBlocks q language, '\t' ∉ block.attributes) →
        extractBlocks p language = extractBlocks q language) := by
  rw [recordsOf_eq, recordsOf_eq] at h
  have hfields := forall₂_sameFields_of_encodeAll_eq hp hq h
  refine ⟨hfields, fun htabs => ?_⟩
  rw [List.forall_mem_append] at htabs
  exact eq_of_forall₂_sameFields hfields htabs.1 htabs.2

/-- The same two blocks, with tabs in the content and commas in the attributes, after other prose
and with other line ends. -/
theorem extractBlocks_eq_of_records_eq_line_ends :
    let p := "a\n\x60\x60\x60rust,b,c\n1\t\t2\n\n\x60\x60\x60\n\x60\x60\x60RUST\nd".toList
    let q := "e\r\x60\x60\x60Rust,b,c\r\n1\t\t2\r\r\x60\x60\x60\r\n\x60\x60\x60rust\nd".toList
    extractBlocks p .standard =
        [⟨2, ['b', ',', 'c'], ['1', '\t', '\t', '2', '\n']⟩, ⟨6, [], ['d']⟩] ∧
      extractBlocks p .standard = extractBlocks q .standard := by
  intro p q
  refine ⟨by decide +kernel, ?_⟩
  exact (extractBlocks_eq_of_records_eq .standard p q (by decide +kernel) (by decide +kernel)
    (by decide +kernel)).2 (by decide +kernel)

/-- A tab in the attributes can be taken for the one after them. -/
example :
    recordsOf "\x60\x60\x60rust,a\tb\nc".toList .standard =
      recordsOf "\x60\x60\x60rust,a\nb\tc".toList .standard := by
  decide +kernel

/-- A text with one block, whose content is that of a block, a NUL and the fields of another block.
-/
def oneBlock : Text :=
  "\x60\x60\x60rust\nx\x004\t\ty\n\x60\x60\x60".toList

/-- A text with these two blocks. -/
def twoBlocks : Text :=
  "\x60\x60\x60rust\nx\n\x60\x60\x60\n\x60\x60\x60rust\ny\n\x60\x60\x60".toList

/-- **Records with NULs cannot be told apart.** One block that holds a NUL and two blocks that hold
none are written as the same octets. -/
theorem records_not_injective :
    (recordsOf oneBlock .standard = recordsOf twoBlocks .standard ∧
      (extractBlocks oneBlock .standard).length = 1 ∧
      (extractBlocks twoBlocks .standard).length = 2) ∧
    ¬ ∀ (language : Language) (p q : Text), recordsOf p language = recordsOf q language →
      extractBlocks p language = extractBlocks q language := by
  have hrecords : recordsOf oneBlock .standard = recordsOf twoBlocks .standard := by
    decide +kernel
  have hone : (extractBlocks oneBlock .standard).length = 1 := by decide +kernel
  have htwo : (extractBlocks twoBlocks .standard).length = 2 := by decide +kernel
  refine ⟨⟨hrecords, hone, htwo⟩, fun hinjective => ?_⟩
  have hsame := hinjective .standard oneBlock twoBlocks hrecords
  rw [hsame, htwo] at hone
  cases hone

end FencedCode
