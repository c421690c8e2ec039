import FencedCode.Text.Basic

/-!
# Control sequences

Control characters, and the sequences that the escape character begins, steer a terminal and show
nothing. `withoutControls` leaves what a reader of the text would see: it shows no character but
visible ones and layout (`isShown_of_mem_withoutControls`), takes them from the text in their order
(`withoutControls_sublist`), and changes no text that holds nothing else
(`withoutControls_eq_self`).

## Shape of a sequence

An escape character begins one. What ends it depends on the character after that: `[` a sequence
with parameters, ended by a final character; `P` a device string and `X`, `^`, `_` other strings,
ended by the octet `0x9C`; `]` a command to the system, ended by the bell; any other is the end
itself, if only intermediate characters come before it. Everywhere a cancelling character gives up
the sequence and an escape character begins a new one.

Layout inside a sequence that is no string is shown and interrupts the sequence: what follows is
read as text, until a control character resumes it or a character beyond ASCII gives it up.
-/
namespace FencedCode.Text

/-- The control characters that lay out a text: tabulator, line feed, form feed, carriage return. -/
def isLayout (c : Char) : Bool :=
  c == '\t' || c == '\n' || c == '\x0c' || c == '\r'

/-- Whether a character is shown where it stands outside all control sequences: layout, the visible
characters of ASCII and all characters beyond it. -/
def isShown (c : Char) : Bool :=
  isLayout c || (' ' ≤ c && c ≠ '\x7f')

/-- How far a control sequence has been read. -/
inductive ControlPhase where
  /-- outside of any sequence -/
  | outside
  /-- after the escape character -/
  | escape
  /-- after the escape character and intermediate ones -/
  | intermediate
  /-- in a sequence with parameters, before its final character -/
  | parameters
  /-- at the start of a device string -/
  | device
  /-- in the parameters of a device string -/
  | deviceParameters
  /-- in the intermediate characters of a device string -/
  | deviceIntermediate
  /-- in the body of a string -/
  | string
  /-- in a command to the system -/
  | system
  deriving DecidableEq, Repr

namespace ControlPhase

/-- The phase after a character. -/
def next (phase : ControlPhase) (c : Char) : ControlPhase :=
  -- wherever they come, the first starts a sequence anew and the other two break it off
  if c = '\x1b' then escape
  else if c = '\x18' ∨ c = '\x1a' then outside
  else
    match phase with
    | outside => outside
    | escape =>
      if c = '[' then parameters
      else if c = ']' then system
      else if c = 'P' then device
      else if c = 'X' ∨ c = '^' ∨ c = '_' then string
      else if ' ' ≤ c ∧ c ≤ '/' then intermediate
      else if '0' ≤ c ∧ c ≤ '~' then outside
      else escape
    | intermediate => if '0' ≤ c ∧ c ≤ '~' then outside else intermediate
    | parameters => if '@' ≤ c ∧ c ≤ '~' then outside else parameters
    | device =>
      if ' ' ≤ c ∧ c ≤ '/' then deviceIntermediate
      else if '0' ≤ c ∧ c ≤ '?' then deviceParameters
      else if '@' ≤ c ∧ c ≤ '~' then string
      else device
    | deviceParameters =>
      if ' ' ≤ c ∧ c ≤ '/' then deviceIntermediate
      else if '<' ≤ c ∧ c ≤ '~' then string
      else deviceParameters
    | deviceIntermediate => if '0' ≤ c ∧ c ≤ '~' then string else deviceIntermediate
    -- the octet that ends a string may stand anywhere in the encoding of a character
    | string => if 0x9C ∈ String.utf8EncodeChar c then outside else string
    | system => if c = '\x07' then outside else system

/-- Whether a character is shown in a phase. -/
def shows : ControlPhase → Char → Bool
  | outside, c => isShown c
  | escape, c | intermediate, c | parameters, c => isLayout c
  | device, _ | deviceParameters, _ | deviceIntermediate, _ | string, _ | system, _ => false

/-- No phase shows a character that steers a terminal. -/
theorem isShown_of_shows {phase : ControlPhase} {c : Char} (h : phase.shows c = true) :
    isShown c = true := by
  cases phase <;> simp_all [shows, isShown]

end ControlPhase

/-- The state of a reader that tells text from control sequences. -/
structure ControlReader where
  /-- the sequence it is in -/
  phase : ControlPhase
  /-- whether it reads text, the sequence being interrupted -/
  inText : Bool
  deriving DecidableEq, Repr

namespace ControlReader

/-- The state before the first character. -/
def start : ControlReader :=
  ⟨.outside, true⟩

/-- The state after a character, which is shown if and only if the reader is in text then. -/
def step (reader : ControlReader) (c : Char) : ControlReader :=
  if reader.inText && isShown c then
    ⟨if c ≤ '\x7f' then reader.phase else .outside, true⟩
  else
    ⟨reader.phase.next c, reader.phase.shows c⟩

/-- Reads a text to its end, with the characters shown so far, latest first. -/
def read (reader : ControlReader) (shown : Text) : Text → Text
  | [] => shown.reverse
  | c :: t => (reader.step c).read (if (reader.step c).inText then c :: shown else shown) t

/-- A reader that is in text after a character has shown it. -/
theorem isShown_of_inText_step {reader : ControlReader} {c : Char}
    (h : (reader.step c).inText = true) : isShown c = true := by
  unfold step at h
  split at h
  · simp_all
  · exact ControlPhase.isShown_of_shows h

/-- Text outside of all sequences leaves the reader as it is. -/
theorem step_start {c : Char} (h : isShown c = true) : start.step c = start := by
  simp [step, start, h]

/-- The characters shown so far do not bear on what follows. -/
theorem read_eq (reader : ControlReader) (shown t : Text) :
    reader.read shown t = shown.reverse ++ reader.read [] t := by
  induction t generalizing reader shown with
  | nil => simp [read]
  | cons c t ih =>
    rw [read, read, ih, ih _ (if (reader.step c).inText then [c] else [])]
    split <;> simp

/-- A character is shown or not, and then the rest is read. -/
theorem read_cons (reader : ControlReader) (c : Char) (t : Text) :
    reader.read [] (c :: t) =
      (if (reader.step c).inText then [c] else []) ++ (reader.step c).read [] t := by
  rw [read, read_eq]
  split <;> simp

end ControlReader

/-- A text without its control characters and control sequences. -/
def withoutControls (t : Text) : Text :=
  ControlReader.start.read [] t

/-- What is left of a text steers no terminal. -/
theorem isShown_of_mem_withoutControls {t : Text} {c : Char} (h : c ∈ withoutControls t) :
    isShown c = true := by
  unfold withoutControls at h
  generalize ControlReader.start = reader at h
  induction t generalizing reader with
  | nil => simp [ControlReader.read] at h
  | cons d t ih =>
    rw [ControlReader.read_cons, List.mem_append] at h
    rcases h with h | h
    · split at h
      · rename_i hd
        rw [List.mem_singleton.1 h]
        exact ControlReader.isShown_of_inText_step hd
      · simp at h
    · exact ih _ h

/-- What is left stands in the text in this order. -/
theorem withoutControls_sublist (t : Text) : (withoutControls t).Sublist t := by
  unfold withoutControls
  generalize ControlReader.start = reader
  induction t generalizing reader with
  | nil => simp [ControlReader.read]
  | cons c t ih =>
    rw [ControlReader.read_cons]
    split
    · exact (ih _).cons_cons c
    · exact (ih _).cons c

/-- A text that holds nothing else is left as it is. -/
theorem withoutControls_eq_self {t : Text} (h : ∀ c ∈ t, isShown c = true) :
    withoutControls t = t := by
  unfold withoutControls
  induction t with
  | nil => rfl
  | cons c t ih =>
    rw [ControlReader.read_cons, ControlReader.step_start (h c (by simp)),
      ih fun d hd => h d (by simp [hd])]
    rfl

end FencedCode.Text
