import FencedCode.Toml.Lexeme

/-!
# TOML dates and times

A date, a time of day, or both with or without an offset from universal time. The parts have to be
in range: months have their lengths, February has 29 days in leap years, a minute may have a
leap second.
-/
namespace FencedCode.Toml

/-- A day of the calendar. -/
structure Date where
  year : Nat
  month : Nat
  day : Nat
  deriving DecidableEq, Repr

/-- A time of day, the fraction of a second as its digits. -/
structure TimeOfDay where
  hour : Nat
  minute : Nat
  second : Nat
  fraction : List Char
  deriving DecidableEq, Repr

/-- A date, a time or both; the offset is in minutes. -/
inductive DateTime where
  | date (date : Date)
  | time (time : TimeOfDay)
  | both (date : Date) (time : TimeOfDay) (offset : Option Int)
  deriving DecidableEq, Repr

/-- Whether a year has a 29 February. -/
def isLeapYear (year : Nat) : Bool :=
  year % 4 == 0 && (year % 100 != 0 || year % 400 == 0)

/-- The number of days of a month, counted from one. -/
def daysInMonth (year month : Nat) : Nat :=
  if month = 2 then if isLeapYear year then 29 else 28
  else if month = 4 ∨ month = 6 ∨ month = 9 ∨ month = 11 then 30
  else 31

/-- A number of exactly `n + 1` decimal digits. -/
def fixedDigits (n : Nat) : Reader Nat :=
  (digit.timesSucc n).map (number 10)

/-- A date: year, month and day between hyphens. -/
def date : Reader Date :=
  (((fixedDigits 3).left (.exactly '-')).seq
    (((fixedDigits 1).left (.exactly '-')).seq (fixedDigits 1))).filterMap
      fun (year, month, day) =>
        if 1 ≤ month ∧ month ≤ 12 ∧ 1 ≤ day ∧ day ≤ daysInMonth year month then
          some ⟨year, month, day⟩
        else none

/-- A time of day: hour, minute and second between colons, then a fraction or none. -/
def timeOfDay : Reader TimeOfDay :=
  (((fixedDigits 1).left (.exactly ':')).seq
    (((fixedDigits 1).left (.exactly ':')).seq
      ((fixedDigits 1).optional ((Reader.exactly '.').right digit.oneOrMore)))).filterMap
      fun (hour, minute, second, fraction) =>
        if hour ≤ 23 ∧ minute ≤ 59 ∧ second ≤ 60 then
          some ⟨hour, minute, second, fraction.getD []⟩
        else none

/-- An offset: the letter `Z`, or hours and minutes after a sign. -/
def offset : Reader Int :=
  (Reader.char fun c => c == 'Z' || c == 'z').map (fun _ => 0) <|>
    ((Reader.char fun c => c == '+' || c == '-').seq
      (((fixedDigits 1).left (.exactly ':')).seq (fixedDigits 1))).filterMap
      fun (sign, hours, minutes) =>
        if hours ≤ 23 ∧ minutes ≤ 59 then
          let total := Int.ofNat (60 * hours + minutes)
          some (if sign = '-' then -total else total)
        else none

/-- A date, a time or both. -/
def dateTime : Reader DateTime :=
  (date.optional
    ((Reader.char fun c => c == 'T' || c == 't' || c == ' ').right
      (timeOfDay.optional offset))).map
      (fun
        | (d, none) => .date d
        | (d, some (t, o)) => .both d t o) <|>
    timeOfDay.map .time

end FencedCode.Toml
