import FencedCode.Text.Case
import Mathlib.Data.List.Forall2

/-!
# Letter case, character by character

Folding touches the capitals from `A` to `Z` and no other character. So two texts are the same up
to letter case when they have the same length and at each place the same character, or a capital and
its small letter (`sameFold_iff_forall₂`), and a character that is no such letter is in a text
exactly if it is in the folded one (`mem_foldCase_iff`).
-/
namespace FencedCode.Text

/-- `c` is one of the capitals from `A` to `Z`, and `d` its small letter. -/
def IsCapitalOf (c d : Char) : Prop :=
  65 ≤ c.toNat ∧ c.toNat ≤ 90 ∧ d.toNat = c.toNat + 32

/-- The characters are the same, or one is the capital of the other. -/
def SameLetter (c d : Char) : Prop :=
  c = d ∨ IsCapitalOf c d ∨ IsCapitalOf d c

/-! ## Characters -/

/-- The letters of ASCII are two ranges of the code table. -/
theorem isAlpha_iff {c : Char} :
    c.isAlpha = true ↔ (65 ≤ c.toNat ∧ c.toNat ≤ 90) ∨ (97 ≤ c.toNat ∧ c.toNat ≤ 122) := by
  have hupper : c.isUpper = true ↔ 65 ≤ c.toNat ∧ c.toNat ≤ 90 := by
    show decide (65 ≤ c.toNat ∧ c.toNat ≤ 90) = true ↔ _
    rw [decide_eq_true_eq]
  have hlower : c.isLower = true ↔ 97 ≤ c.toNat ∧ c.toNat ≤ 122 := by
    show (decide (97 ≤ c.toNat) && decide (c.toNat ≤ 122)) = true ↔ _
    rw [Bool.and_eq_true, decide_eq_true_eq, decide_eq_true_eq]
  show (c.isUpper || c.isLower) = true ↔ _
  rw [Bool.or_eq_true, hupper, hlower]

/-- A small letter comes 32 places after its capital. -/
theorem toNat_toLower (c : Char) :
    c.toLower.toNat = if 65 ≤ c.toNat ∧ c.toNat ≤ 90 then c.toNat + 32 else c.toNat := by
  have hcapital : c.val ≥ 'A'.val ∧ c.val ≤ 'Z'.val ↔ 65 ≤ c.toNat ∧ c.toNat ≤ 90 := Iff.rfl
  by_cases h : 65 ≤ c.toNat ∧ c.toNat ≤ 90
  · have hsmall : c.toLower.toNat = (c.val + 32).toNat :=
      congrArg Char.toNat (dif_pos (hcapital.mpr h) : c.toLower = _)
    have hlt : c.val.toNat + 32 < 2 ^ 32 :=
      Nat.lt_of_le_of_lt (Nat.add_le_add_right h.2 32) (by decide)
    rw [if_pos h, hsmall, UInt32.toNat_add]
    exact Nat.mod_eq_of_lt hlt
  · have hsame : c.toLower = c := dif_neg (mt hcapital.mp h)
    rw [if_neg h, hsame]

/-- A small letter has no smaller form. -/
theorem toLower_toLower (c : Char) : c.toLower.toLower = c.toLower := by
  rw [← Char.toNat_inj, toNat_toLower, toNat_toLower]
  split
  · rw [if_neg (by omega)]
  · rfl

/-- Only what is a small letter can come of another character. -/
theorem toLower_eq_iff {c d : Char} (h : d.isAlpha = false) : c.toLower = d ↔ c = d := by
  rw [← Bool.not_eq_true, isAlpha_iff] at h
  rw [← Char.toNat_inj, toNat_toLower, ← Char.toNat_inj]
  split <;> omega

/-- Two characters have the same small form exactly if they are the same letter. -/
theorem toLower_eq_toLower_iff {c d : Char} : c.toLower = d.toLower ↔ SameLetter c d := by
  rw [← Char.toNat_inj, toNat_toLower, toNat_toLower, SameLetter, IsCapitalOf, IsCapitalOf,
    ← Char.toNat_inj]
  split <;> split <;> omega

/-! ## Texts -/

/-- Folding a text once is enough. -/
@[simp] theorem foldCase_foldCase (t : Text) : foldCase (foldCase t) = foldCase t := by
  rw [foldCase, foldCase, List.map_map]
  exact List.map_congr_left fun c _ => toLower_toLower c

/-- Folding neither brings in nor takes away a character that is no letter. -/
theorem mem_foldCase_iff {c : Char} (h : c.isAlpha = false) {t : Text} :
    c ∈ foldCase t ↔ c ∈ t := by
  simp [foldCase, toLower_eq_iff h]

/-- Texts that are the same up to letter case have the same characters that are no letters. -/
theorem mem_iff_of_sameFold {c : Char} (h : c.isAlpha = false) {s t : Text}
    (hst : s.sameFold t = true) : c ∈ s ↔ c ∈ t := by
  rw [← mem_foldCase_iff h, sameFold_iff.mp hst, mem_foldCase_iff h]

/-- Texts are the same up to letter case when their characters are, one after the other. -/
theorem sameFold_iff_forall₂ {s t : Text} :
    s.sameFold t = true ↔ List.Forall₂ SameLetter s t := by
  rw [sameFold_iff, foldCase, foldCase, ← List.forall₂_eq_eq_eq, List.forall₂_map_left_iff,
    List.forall₂_map_right_iff]
  simp only [toLower_eq_toLower_iff]

end FencedCode.Text
