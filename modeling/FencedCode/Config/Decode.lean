import FencedCode.Config.Basic
import FencedCode.Decimal.Shortest
import FencedCode.Toml.Tree

/-!
# Configurations from tables

A table describes a configuration by up to three keys. They are looked at in the order of the text,
and the first that does not fit is reported, with the part of the text that is at fault. A key that
is absent leaves its setting as it is in the standard configuration.
-/
namespace FencedCode

open Toml

/-- The settings that a key may name. -/
inductive Field where
  | language
  | fenceMarkers
  | format
  deriving DecidableEq, Repr

/-- The key of a setting. -/
def Field.name : Field → Text
  | language => "language".toList
  | fenceMarkers => "fence_markers".toList
  | format => "format".toList

/-- The setting of a key. -/
def Field.ofName? (name : Text) : Option Field :=
  [Field.language, .fenceMarkers, .format].find? fun field => field.name == name

/-- What a value should have been. -/
inductive Expected where
  | string
  | sequence
  deriving DecidableEq, Repr

/-- Why a table describes no configuration. -/
inductive DecodeFault where
  /-- a key names no setting -/
  | unknownField (name : Text)
  /-- a value is of another kind -/
  | invalidType (found : Text) (expected : Expected)
  /-- a format has no such name -/
  | unknownVariant (name : Text)
  /-- a format is given by neither a name nor a table -/
  | notAVariant
  /-- a format is given by a table with no key or with several -/
  | notOneKey (several : Bool)
  /-- the key that names a format has a value other than an empty table or array -/
  | notEmpty (what : Text)
  deriving DecidableEq, Repr

namespace Expected

/-- The wording of an expectation. -/
def message : Expected → Text
  | string => "a string".toList
  | sequence => "a sequence".toList

end Expected

/-- The wording of a fault. -/
def DecodeFault.message : DecodeFault → Text
  | unknownField name =>
    "unknown field `".toList ++ name ++
      "`, expected one of `language`, `fence_markers`, `format`".toList
  | invalidType found expected =>
    "invalid type: ".toList ++ found ++ ", expected ".toList ++ expected.message
  | unknownVariant name => Format.notAVariant name
  | notAVariant => "wanted string or table".toList
  | notOneKey several =>
    "wanted exactly 1 element, ".toList ++
      (if several then "more than 1 element".toList else "found 0 elements".toList)
  | notEmpty what => "expected ".toList ++ what

/-- A fault and the part of the text that is at fault. -/
structure Located where
  fault : DecodeFault
  span : Span
  deriving DecidableEq, Repr

/-- The kind of a value, with the value where it is short, for messages. -/
def Toml.Node.kind : Node → Text
  | .scalar (.string text) _ => "string ".toList ++ text.quoted
  | .scalar (.integer n) _ => "integer `".toList ++ Text.ofInt n ++ ['\x60']
  | .scalar (.float x) _ => "floating point `".toList ++ x.toText ++ ['\x60']
  | .scalar (.boolean true) _ => "boolean `true`".toList
  | .scalar (.boolean false) _ => "boolean `false`".toList
  | .scalar (.dateTime _) _ => "map".toList
  | .array .. => "sequence".toList
  | .tables .. => "sequence".toList
  | .table _ => "map".toList

namespace Config

/-- A text, from a string. -/
def decodeString (around : Span) (node : Node) : Except Located Text :=
  match node with
  | .scalar (.string text) _ => .ok text
  | node => .error ⟨.invalidType node.kind .string, node.span?.getD around⟩

/-- A list of texts, from an array of strings. -/
def decodeStrings (around : Span) (node : Node) : Except Located (List Text) :=
  match node with
  | .array items span => items.mapM (decodeString span)
  | .tables elements => elements.mapM fun t => decodeString around (.table t)
  | node => .error ⟨.invalidType node.kind .sequence, node.span?.getD around⟩

/-- What should have been in the place of a value that is not empty. -/
def wantedEmpty : Node → Option Text
  | .array [] _ => none
  | .array .. => some "empty table".toList
  | .table ⟨_, []⟩ => none
  | .table _ => some "empty table".toList
  | .tables _ => some "empty array".toList
  | .scalar (.string _) _ => some "table, found string".toList
  | .scalar (.integer _) _ => some "table, found integer".toList
  | .scalar (.float _) _ => some "table, found float".toList
  | .scalar (.boolean _) _ => some "table, found boolean".toList
  | .scalar (.dateTime _) _ => some "table, found datetime".toList

/-- A format, from its name or from a table with its name as the one key and nothing in it. -/
def decodeFormat (around : Span) (node : Node) : Except Located Format :=
  let span := node.span?.getD around
  match node with
  | .scalar (.string text) _ =>
    match Format.ofName? text with
    | some format => .ok format
    | none => .error ⟨.unknownVariant text, span⟩
  | .table ⟨_, []⟩ => .error ⟨.notOneKey false, span⟩
  | .table ⟨_, [(key, value)]⟩ =>
    match Format.ofName? key.name with
    | none => .error ⟨.unknownVariant key.name, key.span⟩
    | some format =>
      match wantedEmpty value with
      | none => .ok format
      | some what => .error ⟨.notEmpty what, value.span?.getD span⟩
  | .table _ => .error ⟨.notOneKey true, span⟩
  | _ => .error ⟨.notAVariant, span⟩

/-- The configuration with the setting of one key. -/
def decodeEntry (config : Config) (entry : Key × Node) : Except Located Config :=
  let (key, node) := entry
  match Field.ofName? key.name with
  | none => .error ⟨.unknownField key.name, key.span⟩
  | some .language => do
    let language ← decodeString key.span node
    return { config with language := language }
  | some .fenceMarkers => do
    let markers ← decodeStrings key.span node
    return { config with fenceMarkers := markers }
  | some .format => do
    let format ← decodeFormat key.span node
    return { config with format := format }

/-- The configuration that a table describes. -/
def ofTable (table : Table Node) : Except Located Config :=
  table.entries.foldlM decodeEntry .standard

end Config

end FencedCode
