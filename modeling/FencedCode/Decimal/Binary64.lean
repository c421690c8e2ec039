/-!
# Binary floating point

The values of the 64-bit binary format and the reading of a decimal numeral into the nearest of
them. A finite value is a mantissa times a power of two; the arithmetic is exact, on natural
numbers, and rounds once (`roundDiv_mul_le`: the rounded quotient is within half a unit).
-/
namespace FencedCode

/-- A value of the 64-bit binary format: the finite ones are `± mantissa * 2 ^ exponent`, with a
mantissa below `2 ^ 53` and an exponent of at least `-1074`. -/
inductive Binary64 where
  | nan
  | infinite (negative : Bool)
  | finite (negative : Bool) (mantissa : Nat) (exponent : Int)
  deriving DecidableEq, Repr

namespace Binary64

/-- The least exponent of the format. -/
def minExponent : Int := -1074

/-- The largest exponent of the format. -/
def maxExponent : Int := 971

/-- The quotient rounded to the nearest whole number, a half going to the even neighbour. -/
def roundDiv (num den : Nat) : Nat :=
  let q := num / den
  let r := num % den
  if 2 * r < den then q else if den < 2 * r then q + 1 else q + q % 2

/-- The fraction `num / (den * 2 ^ e)` as a numerator and a denominator. -/
def scaleDown (num den : Nat) (e : Int) : Nat × Nat :=
  if 0 ≤ e then (num, den * Nat.pow 2 e.toNat) else (num * Nat.pow 2 (-e).toNat, den)

/-- The exponent at which a positive fraction has a mantissa of 53 binary digits, or the least
exponent when the fraction is too small for that. -/
def exponentOf (num den : Nat) : Int :=
  -- one too small at most
  let guess : Int := (num.log2 : Int) - den.log2 - 53
  let (n, d) := scaleDown num den (guess + 53)
  max minExponent (if d ≤ n then guess + 1 else guess)

/-- The value nearest to a positive fraction, ties going to the even mantissa; infinite when the
format has none that large. -/
def ofFraction (negative : Bool) (num den : Nat) : Binary64 :=
  let e := exponentOf num den
  let (n, d) := scaleDown num den e
  let m := roundDiv n d
  -- rounding may carry into one more digit
  let (m, e) := if m = Nat.pow 2 53 then (Nat.pow 2 52, e + 1) else (m, e)
  if maxExponent < e then .infinite negative else .finite negative m e

/-- The value nearest to `± digits * 10 ^ power`. Powers far outside the format's range are settled
by the number of digits alone, so that no huge power is computed. -/
def ofDecimal (negative : Bool) (digits : Nat) (power : Int) : Binary64 :=
  let magnitude : Int := (Nat.toDigits 10 digits).length + power
  if digits = 0 ∨ magnitude < -330 then .finite negative 0 minExponent
  else if 310 < magnitude then .infinite negative
  else if 0 ≤ power then ofFraction negative (digits * Nat.pow 10 power.toNat) 1
  else ofFraction negative digits (Nat.pow 10 (-power).toNat)

/-- A rounded quotient is at most half a unit away. -/
theorem roundDiv_mul_le (num : Nat) {den : Nat} (h : 0 < den) :
    2 * (roundDiv num den * den) ≤ 2 * num + den ∧
      2 * num ≤ 2 * (roundDiv num den * den) + den := by
  have hd := Nat.div_add_mod num den
  have hr := Nat.mod_lt num h
  have e1 : den * (num / den) = num / den * den := Nat.mul_comm ..
  have h2 : num / den % 2 = 0 ∨ num / den % 2 = 1 := by omega
  simp only [roundDiv]
  split
  · omega
  · split
    · simp only [Nat.add_mul]; omega
    · rcases h2 with h2 | h2 <;> simp only [h2, Nat.add_mul] <;> omega

end Binary64

end FencedCode
