import FencedCode.Log

/-!
# Scan records

What a scan has to say about a document: a block that is dropped because another fence stands
inside it, and a block that the end of the document leaves open. Neither is an error.
-/
namespace FencedCode.Scan

/-- A remark on the block that starts at line `start`. -/
inductive Record where
  /-- the block holds a fence, at line `nested`, that does not close it -/
  | dropped (language : Text) (start nested : Nat)
  /-- the document ends inside the block -/
  | unclosed (language : Text) (start : Nat)
  deriving DecidableEq, Repr

namespace Record

/-- A dropped block is a loss and warned of; an unclosed one is kept. -/
def level : Record → LogLevel
  | dropped .. => .warn
  | unclosed .. => .debug

/-- The wording of a remark. -/
def message : Record → Text
  | dropped language start nested =>
    "Dropping ".toList ++ language ++ " block starting at line ".toList ++ Text.ofNat start ++
      ": nested fence at line ".toList ++ Text.ofNat nested
  | unclosed language start =>
    "Unclosed ".toList ++ language ++ " block starting at line ".toList ++ Text.ofNat start

end Record

end FencedCode.Scan
