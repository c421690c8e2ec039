/-!
# Texts and bytes

A text is the list of its characters, and bytes are the list of octets that carry it. `Text.utf8`
writes a text as UTF-8 and `Bytes.text?` reads it back, refusing octets that are no UTF-8
(`Bytes.text?_utf8`). Counts in messages are decimal digits, `Text.ofNat` and `Text.ofInt`.
-/
namespace FencedCode

/-- A text is the list of its characters. -/
abbrev Text := List Char

/-- Raw octets, as files hold them and sinks take them. -/
abbrev Bytes := List UInt8

namespace Text

/-- The UTF-8 octets of a text. -/
def utf8 (t : Text) : Bytes :=
  t.flatMap String.utf8EncodeChar

/-- How many octets the UTF-8 form of a text takes. -/
def utf8Size (t : Text) : Nat :=
  t.foldr (fun c size => c.utf8Size + size) 0

/-- The decimal digits of a count, without leading zeros. -/
def ofNat (n : Nat) : Text :=
  Nat.toDigits 10 n

/-- The decimal digits of a number, a minus sign before a negative one. -/
def ofInt : Int → Text
  | .ofNat n => ofNat n
  | .negSucc n => '-' :: ofNat (n + 1)

/-- The octets of a text are those of its characters, one after the other. -/
theorem utf8_cons (c : Char) (t : Text) : utf8 (c :: t) = String.utf8EncodeChar c ++ utf8 t :=
  rfl

/-- Texts can be encoded part by part. -/
theorem utf8_append (s t : Text) : utf8 (s ++ t) = utf8 s ++ utf8 t := by
  simp [utf8]

/-- The size is the number of octets written. -/
theorem length_utf8 (t : Text) : (utf8 t).length = utf8Size t := by
  induction t with
  | nil => rfl
  | cons c t ih => simp [utf8_cons, utf8Size, ih, String.length_utf8EncodeChar]

end Text

/-- The text that octets carry, if they are well-formed UTF-8. -/
def Bytes.text? (bytes : Bytes) : Option Text :=
  bytes.toByteArray.utf8Decode?.map Array.toList

/-- Reading gives back every text that was written. -/
theorem Bytes.text?_utf8 (t : Text) : Bytes.text? t.utf8 = some t := by
  change t.utf8Encode.utf8Decode?.map Array.toList = some t
  simp

end FencedCode
