import FencedCode.Toml.Value

/-!
# TOML documents

A document is a sequence of lines: assignments, headers and blank lines. The assignments below a
header belong to the table that it names, those before the first header to the document itself.
-/
namespace FencedCode.Toml

/-- One line, or more where a value goes over several. -/
inductive Line where
  /-- nothing, or a comment -/
  | empty
  | assignment (a : Table.Assignment)
  /-- a header between brackets -/
  | header (path : List Key) (key : Key) (span : Span)
  /-- a header between double brackets -/
  | elementHeader (path : List Key) (key : Key) (span : Span)

/-- A line of a document. -/
def line : Reader Line :=
  let body : Reader Line :=
    (comment.before (.orEnd newline)).map (fun _ => .empty) <|>
      newline.map (fun _ => .empty) <|>
      (((Reader.word '[' ['[']).right (dottedKey.left (.word ']' [']']))).spanned.before
        endOfLine).map (fun ((path, key), span) => .elementHeader path key span) <|>
      (((Reader.exactly '[').right (dottedKey.left (.exactly ']'))).spanned.before
        endOfLine).map (fun ((path, key), span) => .header path key span) <|>
      ((assignment (value depthLimit)).before endOfLine).map .assignment
  body.after blanks

/-- A header and the assignments below it. -/
structure Section where
  /-- whether the header stands between double brackets -/
  isElement : Bool
  path : List Key
  key : Key
  span : Span
  below : List Table.Assignment

/-- The assignments before the first header, and the sections. -/
def sections : List Line → List Table.Assignment × List Section
  | [] => ([], [])
  | .empty :: lines => sections lines
  | .assignment a :: lines =>
    let (below, rest) := sections lines
    (a :: below, rest)
  | .header path key span :: lines =>
    let (below, rest) := sections lines
    ([], ⟨false, path, key, span, below⟩ :: rest)
  | .elementHeader path key span :: lines =>
    let (below, rest) := sections lines
    ([], ⟨true, path, key, span, below⟩ :: rest)

/-- Adds the table of a section to a document. -/
def addSection (root : Table Node) (s : Section) : Option (Table Node) :=
  if s.isElement then root.addElement s.path s.key s.span s.below
  else root.openTable s.path s.key s.span s.below

/-- The table that lines stand for. -/
def assemble (lines : List Line) : Option (Table Node) := do
  let (top, rest) := sections lines
  let root ← top.foldlM Table.assign ⟨.root, []⟩
  rest.foldlM addSection root

/-- A text without the byte order mark that may stand before it. -/
def dropMark : Text → Text
  | '\ufeff' :: text => text
  | text => text

/-- The table that a text stands for, if the text is well-formed. -/
def parse? (text : Text) : Option (Table Node) :=
  let (lines, rest) := line.many (dropMark text)
  if rest.all isBlank then assemble lines else none

end FencedCode.Toml
