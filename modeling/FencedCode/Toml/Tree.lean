import FencedCode.Decimal.Binary64
import FencedCode.Text.Span
import FencedCode.Toml.DateTime

/-!
# TOML values

The tree of values that a TOML text stands for. Tables keep their entries in the order of the text
and remember how they came to be, because that decides what may still be added to them:
`Table.assign` adds an assignment below a dotted key, `Table.openTable` and `Table.addElement` put
a table at the place that a header names. Each fails where the text defines something twice.
-/
namespace FencedCode.Toml

/-- A key, with the part of the text that writes it. -/
structure Key where
  name : Text
  span : Span
  deriving DecidableEq, Repr

/-- A value without parts. -/
inductive Scalar where
  | string (text : Text)
  | integer (value : Int)
  | float (value : Binary64)
  | boolean (value : Bool)
  | dateTime (value : DateTime)
  deriving DecidableEq, Repr

/-- How a table came to be. -/
inductive Origin where
  /-- it is the whole text -/
  | root
  /-- it is written between braces, and complete -/
  | braces (span : Span)
  /-- it has a header of its own; the span goes from the header to the last value below it -/
  | header (span : Span)
  /-- it is on the way of a longer header -/
  | onTheWay
  /-- it is on the way of a dotted key -/
  | dottedKey
  deriving DecidableEq, Repr

/-- A table whose values are of type `ν`. -/
structure Table (ν : Type) where
  origin : Origin
  entries : List (Key × ν)

/-- A value of any kind. -/
inductive Node where
  | scalar (value : Scalar) (span : Span)
  | array (items : List Node) (span : Span)
  | table (table : Table Node)
  /-- the tables of one or more equal headers between double brackets -/
  | tables (elements : List (Table Node))

/-- The part of the text that writes a table, if it is one part. -/
def Origin.span? : Origin → Option Span
  | .braces span | .header span => some span
  | .root | .onTheWay | .dottedKey => none

/-- The part of the text that writes a value, if it is one part. Several tables reach from the
first to the last of them. -/
def Node.span? : Node → Option Span
  | .scalar _ span | .array _ span => some span
  | .table t => t.origin.span?
  | .tables elements => do
    let first ← (← elements.head?).origin.span?
    let last ← (← elements.getLast?).origin.span?
    some (first.through last)

namespace Table

/-- The entries with the value of a key changed by `f`, which is given `none` for a new key and puts
that at the end. -/
def alter {ν : Type} (key : Key) (f : Option ν → Option ν) :
    List (Key × ν) → Option (List (Key × ν))
  | [] => (f none).map fun v => [(key, v)]
  | (other, v) :: entries =>
    if other.name = key.name then (f (some v)).map fun v => (other, v) :: entries
    else (alter key f entries).map ((other, v) :: ·)

/-- The value of a key. -/
def get? {ν : Type} (table : Table ν) (name : Text) : Option ν :=
  (table.entries.find? fun entry => entry.1.name == name).map Prod.snd

/-- The table without a key. -/
def erase {ν : Type} (table : Table ν) (name : Text) : Table ν :=
  { table with entries := table.entries.filter fun entry => entry.1.name != name }

/-- The table with a new key at the end. -/
def append {ν : Type} (table : Table ν) (key : Key) (value : ν) : Table ν :=
  { table with entries := table.entries ++ [(key, value)] }

/-- The two ways to name a table by a path of keys. -/
inductive Route where
  /-- by a header -/
  | header
  /-- by a dotted key -/
  | dottedKey
  deriving DecidableEq, Repr

/-- Whether a table may be passed on a route. Tables between braces are complete, and a dotted key
only leads to tables without a header of their own. -/
def Route.passes : Route → Origin → Bool
  | .header, origin => match origin with
    | .braces _ => false
    | _ => true
  | .dottedKey, origin => origin == .onTheWay || origin == .dottedKey

/-- The origin of a table that a route makes. -/
def Route.origin : Route → Origin
  | .header => .onTheWay
  | .dottedKey => .dottedKey

/-- Changes the last element of a list. -/
def changeLast {α : Type} (f : α → Option α) : List α → Option (List α)
  | [] => none
  | [a] => (f a).map ([·])
  | a :: b :: as => (changeLast f (b :: as)).map (a :: ·)

/-- Changes the table at the end of a path by `f`. Tables on the way are made where there are none;
of several tables with one name the last is meant. -/
def descend (route : Route) (f : Table Node → Option (Table Node)) :
    List Key → Table Node → Option (Table Node)
  | [], table => f table
  | key :: path, table =>
    (alter key
      (fun (old : Option Node) => match old with
        | none => (descend route f path ⟨route.origin, []⟩).map .table
        | some (.table below) =>
          if route.passes below.origin then (descend route f path below).map .table else none
        | some (.tables elements) => (changeLast (descend route f path) elements).map .tables
        | some _ => none)
      table.entries).map fun entries => { table with entries := entries }

/-- An assignment: the keys before the last dot, the last key, and the value. -/
structure Assignment where
  path : List Key
  key : Key
  value : Node

/-- Adds an assignment. The key has to be new, and a table that a dotted key leads to has to be one
that only dotted keys have made. -/
def assign (table : Table Node) (a : Assignment) : Option (Table Node) :=
  table.descend .dottedKey
    (fun target =>
      -- a dotted key ends at a table that dotted keys made, a key without dots at none of these
      if (target.origin == .dottedKey) == a.path.isEmpty then none
      else if (target.get? a.key.name).isSome then none
      else some (target.append a.key a.value))
    a.path

/-- The span of a header, up to the last value below it. -/
def headerSpan (header : Span) (below : List Assignment) : Span :=
  match below.getLast?.bind fun a => a.value.span? with
  | some last => header.through last
  | none => header

/-- A table with a header of its own, what a longer header has put into it before, and the
assignments below its header. -/
def ofHeader (header : Span) (before : List (Key × Node)) (below : List Assignment) :
    Option (Table Node) :=
  below.foldlM assign ⟨.header (headerSpan header below), before⟩

/-- Puts a table with a header at the path of that header. Nothing may be there but a table that
longer headers have made, which then moves to the end. -/
def openTable (root : Table Node) (path : List Key) (key : Key) (header : Span)
    (below : List Assignment) : Option (Table Node) :=
  root.descend .header
    (fun parent =>
      match parent.get? key.name with
      | none => (ofHeader header [] below).map fun t => parent.append key (.table t)
      | some (.table ⟨.onTheWay, before⟩) =>
        (ofHeader header before below).map fun t =>
          (parent.erase key.name).append key (.table t)
      | some _ => none)
    path

/-- Adds one more table to those with the same header between double brackets. -/
def addElement (root : Table Node) (path : List Key) (key : Key) (header : Span)
    (below : List Assignment) : Option (Table Node) :=
  root.descend .header
    (fun parent => do
      let t ← ofHeader header [] below
      let entries ← alter key
        (fun (old : Option Node) => match old with
          | none => some (.tables [t])
          | some (.tables elements) => some (.tables (elements ++ [t]))
          | some _ => none)
        parent.entries
      some { parent with entries := entries })
    path

end Table

end FencedCode.Toml
