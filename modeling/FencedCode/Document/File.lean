import FencedCode.Document.Basic
import FencedCode.Files

/-!
# Documents in files

A document is read from a file as a whole. That there is no such file is reported in plainer words
than any other fault.
-/
namespace FencedCode

/-- Why a document cannot be scanned. -/
structure DocumentFault where
  path : Text
  fault : ReadFault
  deriving DecidableEq, Repr

/-- The wording of a fault; that a file is missing is said more plainly than the rest. -/
def DocumentFault.message (e : DocumentFault) : Text :=
  match e.fault with
  | .notFound => "File not found: ".toList ++ e.path
  | fault => "Failed to read ".toList ++ e.path ++ ": ".toList ++ fault.message

/-- The document in a file. -/
def Document.read (files : TextFiles) (path : Text) : Except DocumentFault Document :=
  match files path with
  | .error fault => .error ⟨path, fault⟩
  | .ok text => .ok (Document.ofText text)

end FencedCode
