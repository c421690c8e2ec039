import FencedCode.Text.Basic

/-!
# Letter case

Texts compared without regard to the case of the letters `a` to `z`. Every other character, letters
outside ASCII among them, is compared exactly.
-/
namespace FencedCode.Text

/-- A text with the letters `A` to `Z` made small. -/
def foldCase (t : Text) : Text :=
  t.map Char.toLower

/-- Whether two texts differ at most in the case of the letters `a` to `z`. -/
def sameFold (s t : Text) : Bool :=
  foldCase s == foldCase t

/-- Texts are the same but for the case of letters if folding makes them equal. -/
theorem sameFold_iff {s t : Text} : sameFold s t = true ↔ foldCase s = foldCase t := by
  simp [sameFold]

/-- Texts that are the same as a third but for the case of letters are so among themselves. -/
theorem sameFold_trans {s t u : Text} (hst : s.sameFold t = true) (htu : t.sameFold u = true) :
    s.sameFold u = true :=
  sameFold_iff.mpr ((sameFold_iff.mp hst).trans (sameFold_iff.mp htu))

end FencedCode.Text
