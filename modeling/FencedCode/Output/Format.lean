import FencedCode.Text.Case
import FencedCode.Text.Basic

/-!
# Output formats

The two ways to write blocks, and the reading of a format's name, on the command line and in a
configuration.
-/
namespace FencedCode

/-- How blocks are written. -/
inductive Format where
  /-- start line, attributes and content separated by tabs, and a NUL at the end -/
  | records
  /-- one object per line -/
  | json
  deriving DecidableEq, Repr

namespace Format

/-- Both formats, in the order in which they are offered. -/
def all : List Format :=
  [records, json]

/-- The format that is used when nothing else is asked for. -/
def standard : Format :=
  records

/-- The name of a format. -/
def name : Format → Text
  | records => "records".toList
  | json => "json".toList

/-- The name of a format where a configuration is shown. -/
def describe : Format → Text
  | records => "Records".toList
  | json => "Json".toList

/-- The format of a name. -/
def ofName? (text : Text) : Option Format :=
  all.find? fun format => format.name == text

/-- The format of a name in any letter case. -/
def ofNameFold? (text : Text) : Option Format :=
  all.find? fun format => format.name.sameFold text

/-- A name that no format has, as an argument. -/
def notAChoice (text : Text) : Text :=
  "invalid variant: ".toList ++ text

/-- A name that no format has, as a value in a text to be decoded. -/
def notAVariant (text : Text) : Text :=
  "unknown variant `".toList ++ text ++
    "`, expected `records` or `json`".toList

/-- A format is found under its name. -/
theorem ofName?_name (format : Format) : ofName? format.name = some format := by
  cases format <;> decide

end Format

end FencedCode
