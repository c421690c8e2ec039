import FencedCode.Text.Basic
import Mathlib.Data.List.Basic

/-!
# Octets and digits

What the octets of a text and the digits of a count give away. A text is determined by its octets
(`Text.utf8_injective`), and an octet below 128 is among them only for the character that it stands
for (`Text.octet_mem_utf8_iff`), so an ASCII delimiter that is not in a text is not in its octets
either. The digits of a count are decimal digits, the first of them is zero for no count but zero,
and they can be read back.
-/
namespace FencedCode.Text

/-! ## Octets -/

/-- Different texts have different octets, as these can be decoded. -/
theorem utf8_injective : Function.Injective utf8 := by
  intro s t h
  have htext : Bytes.text? (utf8 s) = Bytes.text? (utf8 t) := congrArg Bytes.text? h
  rw [Bytes.text?_utf8, Bytes.text?_utf8] at htext
  exact Option.some.inj htext

/-- The octets of a character that is not ASCII are 128 or more. -/
theorem le_toNat_of_mem_utf8EncodeChar {c : Char} (hc : 128 ≤ c.toNat) {o : UInt8}
    (ho : o ∈ String.utf8EncodeChar c) : 128 ≤ o.toNat := by
  have hval : c.val.toNat = c.toNat := rfl
  have hoctet (m : Nat) (hlow : 128 ≤ m) (hhigh : m < 256) : 128 ≤ (UInt8.ofNat m).toNat := by
    rw [UInt8.toNat_ofNat', Nat.mod_eq_of_lt hhigh]
    exact hlow
  rw [String.utf8EncodeChar, hval, if_neg (by omega)] at ho
  -- two, three or four octets
  split at ho
  · simp only [List.mem_cons, List.not_mem_nil, or_false] at ho
    rcases ho with rfl | rfl
    all_goals exact hoctet _ (by omega) (by omega)
  · split at ho
    · simp only [List.mem_cons, List.not_mem_nil, or_false] at ho
      rcases ho with rfl | rfl | rfl
      all_goals exact hoctet _ (by omega) (by omega)
    · simp only [List.mem_cons, List.not_mem_nil, or_false] at ho
      rcases ho with rfl | rfl | rfl | rfl
      all_goals exact hoctet _ (by omega) (by omega)

/-- A character of ASCII is written as one octet, its number. -/
theorem utf8EncodeChar_ascii {c : Char} (hc : c.toNat < 128) :
    String.utf8EncodeChar c = [UInt8.ofNat c.toNat] := by
  have hval : c.val.toNat = c.toNat := rfl
  rw [String.utf8EncodeChar, hval, if_pos (by omega)]

/-- An octet below 128 is written for the character that it stands for and for no other. -/
theorem octet_mem_utf8EncodeChar_iff {d : Char} (hd : d.toNat < 128) (c : Char) :
    UInt8.ofNat d.toNat ∈ String.utf8EncodeChar c ↔ d = c := by
  have hoctet : (UInt8.ofNat d.toNat).toNat = d.toNat := by
    rw [UInt8.toNat_ofNat', Nat.mod_eq_of_lt (by omega)]
  constructor
  · intro h
    -- the octets of a longer encoding are all 128 or more
    have hc : c.toNat < 128 := by
      apply Nat.lt_of_not_le
      intro hc
      have := le_toNat_of_mem_utf8EncodeChar hc h
      omega
    rw [utf8EncodeChar_ascii hc, List.mem_singleton] at h
    have := congrArg UInt8.toNat h
    rw [hoctet, UInt8.toNat_ofNat', Nat.mod_eq_of_lt (by omega)] at this
    exact Char.toNat_inj.mp this
  · rintro rfl
    rw [utf8EncodeChar_ascii hd]
    exact List.mem_singleton_self _

/-- An octet below 128 is in the octets of a text exactly if its character is in the text. -/
theorem octet_mem_utf8_iff {d : Char} (hd : d.toNat < 128) (t : Text) :
    UInt8.ofNat d.toNat ∈ utf8 t ↔ d ∈ t := by
  rw [utf8, List.mem_flatMap]
  constructor
  · rintro ⟨c, hc, hmem⟩
    rwa [(octet_mem_utf8EncodeChar_iff hd c).mp hmem]
  · intro h
    exact ⟨d, h, (octet_mem_utf8EncodeChar_iff hd d).mpr rfl⟩

/-! ## Digits -/

/-- A count is written in decimal digits. -/
theorem isDigit_of_mem_ofNat {n : Nat} {c : Char} (h : c ∈ ofNat n) : c.isDigit = true :=
  Nat.isDigit_of_mem_toDigits (by decide) (by decide) h

/-- A character that is no digit is not in a count. -/
theorem not_mem_ofNat {c : Char} (h : c.isDigit = false) (n : Nat) : c ∉ ofNat n := by
  intro hmem
  rw [isDigit_of_mem_ofNat hmem] at h
  cases h

/-- The digits of a count stand for it. -/
theorem ofDigitChars_ofNat (n : Nat) : Nat.ofDigitChars 10 (ofNat n) 0 = n :=
  Nat.ofDigitChars_ten_toDigits

/-- Different counts have different digits, as these can be read back. -/
theorem ofNat_injective : Function.Injective ofNat := by
  intro m n h
  have hvalue : Nat.ofDigitChars 10 (ofNat m) 0 = Nat.ofDigitChars 10 (ofNat n) 0 := by rw [h]
  rwa [ofDigitChars_ofNat, ofDigitChars_ofNat] at hvalue

/-- A count has digits, and starts with a zero only if it is zero. -/
theorem exists_ofNat_eq_cons (n : Nat) : ∃ d ds, ofNat n = d :: ds ∧ (d = '0' → n = 0) := by
  -- by induction on the number without its last digit
  induction n using Nat.strongRecOn with
  | _ n ih =>
    by_cases hsmall : n < 10
    · refine ⟨n.digitChar, [], Nat.toDigits_of_lt_base hsmall, ?_⟩
      have hzero : ∀ m < 10, m.digitChar = '0' → m = 0 := by decide
      exact hzero n hsmall
    · obtain ⟨d, ds, hds, hd⟩ := ih (n / 10) (by omega)
      have hne : d ≠ '0' := fun he => by
        have := hd he
        omega
      refine ⟨d, ds ++ [(n % 10).digitChar], ?_, fun he => absurd he hne⟩
      rw [ofNat, Nat.toDigits_of_base_le (by decide) (by omega), ← List.cons_append, ← hds, ofNat]

end FencedCode.Text
