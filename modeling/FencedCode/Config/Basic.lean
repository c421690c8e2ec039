import FencedCode.Language
import FencedCode.Output.Format
import FencedCode.Text.Blank

/-!
# Configurations

What to extract and how to write it: a language, further markers for it, and a format. A
configuration is valid if each of its tags could stand on a fence. `Config.invalidTag?` names the
first that could not, the language before the markers.
-/
namespace FencedCode

/-- The settings of an extraction. -/
structure Config where
  language : Text
  fenceMarkers : List Text
  format : Format
  deriving DecidableEq, Repr

/-- Why no fence can carry a tag. -/
inductive TagFlaw where
  /-- it is empty -/
  | empty
  /-- it holds a comma, which would end it, or a backtick, which would belong to the fence -/
  | forbidden
  /-- it holds white space -/
  | blank
  deriving DecidableEq, Repr

/-- What a tag is for. -/
inductive TagRole where
  | language
  | marker
  deriving DecidableEq, Repr

/-- A tag that no fence can carry. -/
structure InvalidTag where
  role : TagRole
  tag : Text
  flaw : TagFlaw
  deriving DecidableEq, Repr

/-- The flaw of a tag, if it has one; of several the first in the order of the flaws. -/
def tagFlaw? (tag : Text) : Option TagFlaw :=
  if tag.isEmpty then some .empty
  else if tag.contains ',' || tag.contains '\x60' then some .forbidden
  else if tag.any Text.isBlank then some .blank
  else none

/-- The wording of a flaw. -/
def TagFlaw.message (tag : Text) : TagFlaw → Text
  | empty => "fence tag cannot be empty".toList
  | forbidden => "fence tag contains invalid character: ".toList ++ tag.quoted
  | blank => "fence tag cannot contain whitespace: ".toList ++ tag.quoted

/-- The wording of a role. -/
def TagRole.message : TagRole → Text
  | language => "Invalid language".toList
  | marker => "Invalid fence marker".toList

/-- What is wrong with a tag, after what it is for. -/
def InvalidTag.message (invalid : InvalidTag) : Text :=
  invalid.role.message ++ ": ".toList ++ invalid.flaw.message invalid.tag

namespace Config

/-- The configuration in which nothing is set. -/
def standard : Config where
  language := Language.standardName
  fenceMarkers := []
  format := .standard

/-- The tags of a configuration in the order in which they are checked. -/
def tags (config : Config) : List (TagRole × Text) :=
  (.language, config.language) :: config.fenceMarkers.map (.marker, ·)

/-- The first tag that no fence can carry. -/
def invalidTag? (config : Config) : Option InvalidTag :=
  config.tags.findSome? fun (role, tag) => (tagFlaw? tag).map fun flaw => ⟨role, tag, flaw⟩

/-- Accepts a configuration without invalid tags. -/
def validate (config : Config) : Except InvalidTag Unit :=
  match config.invalidTag? with
  | some invalid => .error invalid
  | none => .ok ()

/-- The language that a configuration describes. -/
def target (config : Config) : Language :=
  Language.withMarkers config.language config.fenceMarkers

/-- The configuration as debug output shows it. -/
def describe (config : Config) : Text :=
  "ExtractConfig \x7b language: ".toList ++ config.language.quoted ++
    ", fence_markers: ".toList ++ Text.quotedList config.fenceMarkers ++
    ", format: ".toList ++ config.format.describe ++ " \x7d".toList

end Config

end FencedCode
