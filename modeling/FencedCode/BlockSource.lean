import FencedCode.Block

/-!
# Sources of blocks

A source gives one block at a time and may keep a state of its own. It is finite: whenever it gives
a block it gets smaller, so drawing from it comes to an end. A list of blocks is a source; a scan,
which looks for the next block only when asked, is another.
-/
namespace FencedCode

/-- A finite supply of blocks that is drawn from one at a time. -/
class BlockSource (σ : Type) where
  /-- the next block, if there is one, and the source after it was asked -/
  next : σ → Option Block × σ
  /-- a bound on how many more blocks there are -/
  size : σ → Nat
  /-- a block that is given is taken away -/
  size_next_lt : ∀ source block, (next source).1 = some block → size (next source).2 < size source

namespace BlockSource

/-- All blocks of a source, and the source when it has no more. -/
def drain {σ : Type} [BlockSource σ] (source : σ) : List Block × σ :=
  match _h : next source with
  | (some block, rest) =>
    let (blocks, last) := drain rest
    (block :: blocks, last)
  | (none, rest) => ([], rest)
termination_by size source
decreasing_by
  have := size_next_lt source block (by rw [_h])
  rwa [_h] at this

section

variable {σ : Type} [BlockSource σ] {source other rest : σ} {block : Block}

/-- A block that is given comes first. -/
theorem drain_of_next_some (h : next source = (some block, rest)) :
    drain source = (block :: (drain rest).1, (drain rest).2) := by
  rw [drain]
  split
  · rename_i h'
    obtain ⟨⟨rfl⟩, rfl⟩ := Prod.mk.inj (h'.symm.trans h)
    rfl
  · rename_i h'
    cases h'.symm.trans h

/-- Without a block there are no more. -/
theorem drain_of_next_none (h : next source = (none, rest)) : drain source = ([], rest) := by
  rw [drain]
  split
  · rename_i h'
    cases h'.symm.trans h
  · rename_i h'
    rw [(Prod.mk.inj (h'.symm.trans h)).2]

/-- What a source gives in all depends only on what it gives next. -/
theorem drain_congr (h : next source = next other) : drain source = drain other := by
  rcases h' : next other with ⟨_ | block, rest⟩
  · rw [drain_of_next_none h', drain_of_next_none (h.trans h')]
  · rw [drain_of_next_some h', drain_of_next_some (h.trans h')]

end

instance : BlockSource (List Block) where
  next
    | [] => (none, [])
    | block :: blocks => (some block, blocks)
  size := List.length
  size_next_lt
    | _ :: blocks, _, _ => Nat.lt_succ_self blocks.length

end BlockSource

end FencedCode
