import FencedCode.Text.Case
import FencedCode.Text.Quoted

/-!
# Target languages

A language is named by a tag and recognised by its markers, the tags that open one of its blocks.
`Language.opening?` decides whether a line opens a block: three backticks, a marker in any letter
case, and, after a comma, the attributes, which are kept as they stand.
-/
namespace FencedCode

/-- The three backticks that open and close a fenced block. -/
def fence : Text :=
  ['\x60', '\x60', '\x60']

/-- Whether a line starts with a fence. -/
def isFenceLine (line : Text) : Bool :=
  fence.isPrefixOf line

/-- The language whose fenced blocks are extracted. -/
structure Language where
  /-- the name as given, for messages -/
  name : Text
  /-- the tags that open a block, the name first -/
  markers : List Text
  deriving DecidableEq, Repr

namespace Language

/-- Whether a tag is one of the markers, letter case aside. -/
def hasTag (language : Language) (tag : Text) : Bool :=
  language.markers.any fun marker => marker.sameFold tag

/-- A language known by its name alone. -/
def ofName (name : Text) : Language where
  name := name
  markers := [name]

/-- The language with one more marker, unless it already has that tag. -/
def addMarker (language : Language) (marker : Text) : Language :=
  if language.hasTag marker then language
  else { language with markers := language.markers ++ [marker] }

/-- A language known by its name and by further markers, those that repeat an earlier one left
out. -/
def withMarkers (name : Text) (markers : List Text) : Language :=
  markers.foldl addMarker (ofName name)

/-- The name of the language that is extracted when nothing else is asked for. -/
def standardName : Text :=
  "rust".toList

/-- The language that is extracted when nothing else is asked for. -/
def standard : Language :=
  ofName standardName

/-- The tag and the attributes of the text after a fence: what stands before and after its first
comma, the attributes being empty when there is none. -/
def splitInfo (info : Text) : Text × Text :=
  (info.takeWhile (· != ','), (info.dropWhile (· != ',')).drop 1)

/-- The attributes of the block that a line opens, if it opens one in this language. -/
def opening? (language : Language) (line : Text) : Option Text :=
  if isFenceLine line then
    let (tag, attributes) := splitInfo (line.drop fence.length)
    if language.hasTag tag then some attributes else none
  else
    none

/-- Only a line that starts with a fence opens a block. -/
theorem isFenceLine_of_opening? {language : Language} {line attributes : Text}
    (h : language.opening? line = some attributes) : isFenceLine line = true := by
  unfold opening? at h
  split at h
  · assumption
  · cases h

/-- The language as debug output shows it. -/
def describe (language : Language) : Text :=
  "TargetLanguage \x7b name: ".toList ++ language.name.quoted ++ ", fence_markers: ".toList ++
    Text.quotedList language.markers ++ " \x7d".toList

end Language

end FencedCode
