import FencedCode.Text.Basic

/-!
# Text files

The reading of a file by its path, and why it can fail. What a run needs of the files around it is
one function from paths to texts.
-/
namespace FencedCode

/-- Why a file cannot be read as text. -/
inductive ReadFault where
  /-- there is no such file -/
  | notFound
  /-- the path goes on after a file -/
  | notADirectory
  /-- the path ends at a directory -/
  | isADirectory
  /-- a component or the whole path is too long -/
  | nameTooLong
  /-- the path holds a NUL -/
  | nulInName
  /-- the content is not UTF-8 -/
  | notUtf8
  /-- anything else, in the system's words -/
  | refused (reason : Text)
  deriving DecidableEq, Repr

/-- The system's words for a fault. -/
def ReadFault.message : ReadFault → Text
  | notFound => "No such file or directory (os error 2)".toList
  | notADirectory => "Not a directory (os error 20)".toList
  | isADirectory => "Is a directory (os error 21)".toList
  | nameTooLong => "File name too long (os error 36)".toList
  | nulInName => "file name contained an unexpected NUL byte".toList
  | notUtf8 => "stream did not contain valid UTF-8".toList
  | refused reason => reason

/-- The reading of files: the text at a path, or why there is none. -/
abbrev TextFiles := Text → Except ReadFault Text

/-- The text that bytes hold. -/
def decodeFile (bytes : Bytes) : Except ReadFault Text :=
  match bytes.text? with
  | some text => .ok text
  | none => .error .notUtf8

end FencedCode
