import FencedCode.Text.Reader

/-!
# Spans

A span is a part of a text. It is kept as two ends of that text, the one that starts with the part
and the one that starts after it, so that reading needs no count of characters; where it stands is
worked out only when a message has to point at it.
-/
namespace FencedCode

/-- A part of a text, given by the end of the text from the part on and the end after it. -/
structure Span where
  here : Text
  after : Text
  deriving DecidableEq, Repr

/-- A reader with the span of what it takes. -/
def Reader.spanned {α : Type} (p : Reader α) : Reader (α × Span) where
  run s := do
    let (a, r) ← p.run s
    some ((a, ⟨s, r⟩), r)
  shorter {s x r} h := by
    simp only [Option.bind_eq_bind, Option.bind_eq_some_iff, Option.some.injEq, Prod.mk.injEq] at h
    obtain ⟨⟨a, r'⟩, hp, -, rfl⟩ := h
    exact p.shorter hp

namespace Span

/-- The size of a part in bytes. -/
def bytes (span : Span) : Nat :=
  span.here.utf8Size - span.after.utf8Size

/-- The part from the start of one span to the end of another. -/
def through (first last : Span) : Span where
  here := first.here
  after := last.after

/-- The text before a part. -/
def before (span : Span) (text : Text) : Text :=
  text.take (text.length - span.here.length)

end Span

end FencedCode
