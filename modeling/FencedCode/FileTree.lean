import FencedCode.Files

/-!
# File trees

A directory held in memory with what is in it, and the reading of a file in it by its path. A path
is followed one component at a time: every component but the last has to lead to a directory, `..`
leads back to the directory that was left, and a path that leads out of the tree finds nothing there
but directories without known names.
-/
namespace FencedCode

/-- A file or a directory. -/
inductive FileTree where
  | file (content : Bytes)
  | directory (entries : List (Text × FileTree))

namespace FileTree

/-- The directory with nothing in it. -/
def empty : FileTree :=
  directory []

/-- The entries of a directory; a file has none. -/
def entries : FileTree → List (Text × FileTree)
  | file _ => []
  | directory es => es

/-- The entries with the one of the given name replaced, or added at the end. -/
def setEntry (name : Text) (tree : FileTree) : List (Text × FileTree) → List (Text × FileTree)
  | [] => [(name, tree)]
  | (other, old) :: es =>
    if other = name then (name, tree) :: es else (other, old) :: setEntry name tree es

/-- What is at a path. -/
def at? (tree : FileTree) : List Text → Option FileTree
  | [] => some tree
  | name :: path =>
    match tree.entries.lookup name with
    | some below => at? below path
    | none => none

/-- The tree with `leaf` put at a path, directories on the way made where they are missing. -/
def put (leaf : FileTree) (tree : FileTree) : List Text → FileTree
  | [] => leaf
  | name :: path =>
    let below := (tree.entries.lookup name).getD empty
    directory (setEntry name (put leaf below path) tree.entries)

/-- The components of a path. -/
def components (path : Text) : List Text :=
  path.splitOn '/'

/-- Whether a component leaves the path where it is. -/
def isStay (name : Text) : Bool :=
  name == [] || name == ['.']

/-- Whether a component leads to the enclosing directory. -/
def isUp (name : Text) : Bool :=
  name == ['.', '.']

/-- The tree with a file at a path. -/
def addFile (tree : FileTree) (path : Text) (content : Bytes) : FileTree :=
  put (file content) tree ((components path).filter fun name => !isStay name)

/-- The tree with a directory at a path. -/
def addDirectory (tree : FileTree) (path : Text) : FileTree :=
  let names := (components path).filter fun name => !isStay name
  put (tree.at? names |>.getD empty) tree names

/-- The longest name of a file, in bytes. -/
def nameLimit : Nat := 255

/-- The longest path that is followed, in bytes. -/
def pathLimit : Nat := 4095

/-- Follows a path outside the tree, where no names are known. -/
def walkOutside : List Text → Except ReadFault Bytes
  | [] => .error .isADirectory
  | name :: path =>
    if isStay name || isUp name then walkOutside path
    else if nameLimit < name.utf8Size then .error .nameTooLong
    else .error .notFound

/-- Follows a path from a place in the tree; `above` holds the directories that enclose it, the
nearest first. -/
def walk : (above : List FileTree) → FileTree → List Text → Except ReadFault Bytes
  | _, file content, [] => .ok content
  | _, file _, _ :: _ => .error .notADirectory
  | _, directory _, [] => .error .isADirectory
  | above, directory es, name :: path =>
    if isStay name then walk above (directory es) path
    else if isUp name then
      -- there is nothing above the tree but what lies outside of it
      match above with
      | [] => walkOutside path
      | parent :: above => walk above parent path
    else if nameLimit < name.utf8Size then .error .nameTooLong
    else
      match es.lookup name with
      | some tree => walk (directory es :: above) tree path
      | none => .error .notFound

/-- The content of the file at a path. -/
def read (tree : FileTree) (path : Text) : Except ReadFault Bytes :=
  if path.contains '\x00' then .error .nulInName
  else if path.isEmpty then .error .notFound
  else if pathLimit < path.utf8Size then .error .nameTooLong
  else if path.head? = some '/' then walkOutside (components path)
  else walk [] tree (components path)

/-- The reading of text files in a tree. -/
def texts (tree : FileTree) : TextFiles := fun path =>
  tree.read path >>= decodeFile

end FileTree

end FencedCode
