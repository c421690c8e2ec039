import FencedCode.Decimal.Binary64
import FencedCode.Toml.Lexeme

/-!
# TOML numbers

Integers, decimal or with the prefix of another base, and floating point numbers. An integer has to
fit into 64 bits with a sign. A floating point number is the nearest value of the binary format; one
that is too large for the format is no number when it is positive, and negative infinity when it is
negative.
-/
namespace FencedCode.Toml

/-- The digits of a whole decimal number, which starts with no needless zero. -/
def wholeDigits : Reader (List Char) :=
  underscored (.char fun c => c.isDigit && c != '0') digit <|> (Reader.exactly '0').map ([·])

/-- The digits after a decimal point or in an exponent, which may start with zeros. -/
def anyDigits : Reader (List Char) :=
  underscored digit digit

/-- The largest integer. -/
def maxInteger : Nat :=
  Nat.pow 2 63 - 1

/-- An integer in a base with a prefix, without a sign. -/
def prefixed (letter : Char) (base : Nat) (digit : Reader Char) : Reader Int :=
  ((Reader.word '0' [letter]).right (underscored digit digit)).filterMap fun ds =>
    let n := number base ds
    if n ≤ maxInteger then some (Int.ofNat n) else none

/-- A decimal integer. -/
def decimalInteger : Reader Int :=
  (signed wholeDigits).filterMap fun (negative, ds) =>
    let n := number 10 ds
    if negative then if n ≤ maxInteger + 1 then some (-Int.ofNat n) else none
    else if n ≤ maxInteger then some (Int.ofNat n) else none

/-- An integer in any base. -/
def integer : Reader Int :=
  prefixed 'x' 16 (.char isHexDigit) <|>
    prefixed 'o' 8 (.char fun c => '0' ≤ c && c ≤ '7') <|>
    prefixed 'b' 2 (.char fun c => c == '0' || c == '1') <|> decimalInteger

/-- An exponent: a letter, then a whole number with or without a sign. -/
def exponent : Reader Int :=
  ((Reader.char fun c => c == 'e' || c == 'E').right (signed anyDigits)).map fun (negative, ds) =>
    if negative then -Int.ofNat (number 10 ds) else Int.ofNat (number 10 ds)

/-- What makes a number a floating point number: a fraction, an exponent or both. -/
def fractionOrExponent : Reader (List Char × Int) :=
  ((Reader.exactly '.').right anyDigits |>.optional exponent).map
      (fun (ds, e) => (ds, e.getD 0)) <|>
    exponent.map fun e => ([], e)

/-- A floating point number written with digits. -/
def decimalFloat : Reader Binary64 :=
  ((signed wholeDigits).seq fractionOrExponent).filterMap fun ((negative, whole), fraction, e) =>
    let value := Binary64.ofDecimal negative (number 10 (whole ++ fraction)) (e - fraction.length)
    if value = .infinite false then none else some value

/-- An infinity or the value that is no number. -/
def namedFloat : Reader Binary64 :=
  (signed ((Reader.word 'i' ['n', 'f']).map (fun _ => true) <|>
    (Reader.word 'n' ['a', 'n']).map fun _ => false)).map
      fun (negative, isInfinite) => if isInfinite then .infinite negative else .nan

/-- A floating point number. -/
def float : Reader Binary64 :=
  decimalFloat <|> namedFloat

end FencedCode.Toml
