import FencedCode.Config.Decode
import FencedCode.Files
import FencedCode.Text.Pointer
import FencedCode.Toml.Document

/-!
# Configurations from texts and files

A text is a configuration if it is well-formed TOML, describes a configuration, and that is valid;
the three are checked in this order. A file is read and its text taken as a configuration. The words
for a text that is not well-formed are those of the reader of TOML, and are passed on as they are.
-/
namespace FencedCode

/-- Why a text is no configuration. -/
inductive ParseFault where
  /-- the text is not well-formed -/
  | malformed (text : Text)
  /-- the text describes no configuration -/
  | misfit (pointer : Pointer)
  /-- the configuration holds a tag that no fence can carry -/
  | invalid (tag : InvalidTag)
  deriving DecidableEq, Repr

/-- Why a file is no configuration. -/
inductive LoadFault where
  | unreadable (path : Text) (fault : ReadFault)
  | rejected (path : Text) (fault : ParseFault)
  deriving DecidableEq, Repr

/-- The heading of a message about a text that is to be a configuration. -/
def parseHeading : Text :=
  "TOML parse error".toList

/-- The wording of a fault, given what is said of a text that is not well-formed. -/
def ParseFault.message (syntaxError : Text → Text) : ParseFault → Text
  | malformed text => syntaxError text
  | misfit pointer => pointer.render parseHeading
  | invalid tag => tag.message

/-- The wording of a fault in a file. -/
def LoadFault.message (syntaxError : Text → Text) : LoadFault → Text
  | unreadable path fault => "Failed to read config ".toList ++ path ++ ": ".toList ++ fault.message
  | rejected path fault =>
    "Invalid config ".toList ++ path ++ ": ".toList ++ fault.message syntaxError

namespace Config

/-- The configuration that a text gives. -/
def parse (text : Text) : Except ParseFault Config :=
  match Toml.parse? text with
  | none => .error (.malformed text)
  | some table =>
    match ofTable table with
    | .error located => .error (.misfit ⟨text, located.span, located.fault.message⟩)
    | .ok config =>
      match config.validate with
      | .error tag => .error (.invalid tag)
      | .ok () => .ok config

/-- The configuration in a file. -/
def load (files : TextFiles) (path : Text) : Except LoadFault Config :=
  match files path with
  | .error fault => .error (.unreadable path fault)
  | .ok text =>
    match parse text with
    | .error fault => .error (.rejected path fault)
    | .ok config => .ok config

end Config

end FencedCode
