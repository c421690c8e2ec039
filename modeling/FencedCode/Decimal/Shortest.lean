import FencedCode.Decimal.Binary64
import FencedCode.Text.Basic

/-!
# Shortest decimal text

The decimal numeral with the fewest digits that still reads back as a given binary value. The reals
that round to the value form an interval; on the grid of multiples of a power of ten only the two
points next to the value need to be tried, so the coarsest grid with a point in the interval gives
the digits. `Binary64.toText` writes them without an exponent.
-/
namespace FencedCode.Binary64

/-- The reals that round to `mantissa * 2 ^ exponent`, as quarters of `2 ^ exponent`: the lower
half-gap is halved again where the mantissa is the least of its binade. -/
structure Rounding where
  /-- the lower end -/
  low : Nat
  /-- the value itself -/
  mid : Nat
  /-- the upper end -/
  high : Nat
  /-- whether the ends belong to the interval -/
  closed : Bool

/-- The interval of a mantissa and an exponent. -/
def rounding (mantissa : Nat) (exponent : Int) : Rounding where
  low := 4 * mantissa - (if mantissa = Nat.pow 2 52 ∧ minExponent < exponent then 1 else 2)
  mid := 4 * mantissa
  high := 4 * mantissa + 2
  closed := mantissa % 2 = 0

/-- Whether `p / q` lies in the interval, measured in the same unit. -/
def Rounding.holds (i : Rounding) (p q : Nat) : Bool :=
  if i.closed then i.low * q ≤ p && p ≤ i.high * q else i.low * q < p && p < i.high * q

/-- How many digits a positive fraction has before its decimal point; zero or negative for a
fraction below one tenth. -/
def wholeDigits (num den : Nat) : Int :=
  if den ≤ num then (Nat.toDigits 10 (num / den)).length
  else 1 - (Nat.toDigits 10 ((den - 1) / num)).length

/-- The point of the grid of multiples of `10 ^ k` that stands for the value, if one of the two
next to the value does: the nearer one, the upper one when both are equally near. -/
def onGrid (mantissa : Nat) (exponent k : Int) : Option Nat :=
  let i := rounding mantissa exponent
  let (un, ud) : Nat × Nat :=
    if 2 ≤ exponent then (Nat.pow 2 (exponent - 2).toNat, 1)
    else (1, Nat.pow 2 (2 - exponent).toNat)
  let (gn, gd) : Nat × Nat :=
    if 0 ≤ k then (Nat.pow 10 k.toNat, 1) else (1, Nat.pow 10 (-k).toNat)
  -- a grid point `c` is `(c * gn / gd) / (un / ud)` units
  let point (c : Nat) : Nat := c * gn * ud
  let q := gd * un
  let c := i.mid * q / (gn * ud)
  match i.holds (point c) q, i.holds (point (c + 1)) q with
  | true, true => if 2 * (i.mid * q) < point c + point (c + 1) then some c else some (c + 1)
  | true, false => some c
  | false, true => some (c + 1)
  | false, false => none

/-- The fewest digits, with the power of ten of the last one, that read back as the value.
Seventeen digits always do. The point ten of the coarsest grid is a one of the next grid. -/
def shortest (mantissa : Nat) (exponent : Int) : Nat × Int :=
  let (n, d) := scaleDown mantissa 1 (-exponent)
  let whole := wholeDigits n d
  match (List.range 17).findSome? fun (n : Nat) =>
      let k := whole - (n + 1)
      (onGrid mantissa exponent k).map fun c => if c % 10 = 0 then (c / 10, k + 1) else (c, k) with
  | some found => found
  | none => (mantissa, exponent)

/-- The numeral `digits * 10 ^ power` without an exponent, with a point and at least one digit on
either side of it. -/
def positional (digits : Nat) (power : Int) : Text :=
  let ds := Text.ofNat digits
  if 0 ≤ power then
    ds ++ List.replicate power.toNat '0' ++ ['.', '0']
  else
    let places := (-power).toNat
    let ds := List.replicate (places + 1 - ds.length) '0' ++ ds
    ds.take (ds.length - places) ++ '.' :: ds.drop (ds.length - places)

/-- The value as a message shows it: the fewest digits that read back, no exponent, and a point
also in a whole number. -/
def toText : Binary64 → Text
  | .nan => ['N', 'a', 'N']
  | .infinite false => ['i', 'n', 'f']
  | .infinite true => ['-', 'i', 'n', 'f']
  | .finite negative mantissa exponent =>
    let (digits, power) := if mantissa = 0 then (0, 0) else shortest mantissa exponent
    if negative then '-' :: positional digits power else positional digits power

end FencedCode.Binary64
