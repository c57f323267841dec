/-!
Dates and times. A moment is a date, a time of day, or both; a date with a time may also say how
far its clock is from universal time.

A moment has two texts. By itself it is written as people write it, `1979-05-27 07:32:00`; inside
a container it is written by its parts, in which trailing zeros of the time are left out.
-/

namespace SableFrontend.Toml

/-- A day of the calendar. -/
structure Date where
  year : Nat
  month : Nat
  day : Nat
  deriving DecidableEq, Repr

/-- A time of day, down to the millionth of a second. -/
structure TimeOfDay where
  hour : Nat
  minute : Nat
  second : Nat
  microsecond : Nat
  deriving DecidableEq, Repr

/-- A date, a time of day, or both. The offset is in minutes, and positive to the east. -/
inductive Moment where
  | date (day : Date)
  | time (clock : TimeOfDay)
  | dateTime (day : Date) (clock : TimeOfDay) (offset? : Option Int)
  deriving DecidableEq, Repr

/-- A number with zeros in front, up to a width. -/
def padded (width value : Nat) : String :=
  let digits := toString value
  String.ofList (List.replicate (width - digits.length) '0') ++ digits

namespace Date

/-- The length of a month. -/
def daysIn (year month : Nat) : Nat :=
  if month = 2 then
    if year % 4 = 0 ∧ (year % 100 ≠ 0 ∨ year % 400 = 0) then 29 else 28
  else if month = 4 ∨ month = 6 ∨ month = 9 ∨ month = 11 then 30
  else 31

/-- Whether the calendar has a day. The years begin at 1. -/
def isReal (date : Date) : Bool :=
  1 ≤ date.year && 1 ≤ date.month && date.month ≤ 12 && 1 ≤ date.day &&
    date.day ≤ daysIn date.year date.month

/-- The text of a date. -/
def text (date : Date) : String :=
  padded 4 date.year ++ "-" ++ padded 2 date.month ++ "-" ++ padded 2 date.day

/-- The parts of a date. -/
def parts (date : Date) : List Nat := [date.year, date.month, date.day]

end Date

namespace TimeOfDay

/-- The text of a time. A fraction that is zero is left out. -/
def text (time : TimeOfDay) : String :=
  padded 2 time.hour ++ ":" ++ padded 2 time.minute ++ ":" ++ padded 2 time.second ++
    (if time.microsecond = 0 then "" else "." ++ padded 6 time.microsecond)

/-- The parts of a time, without the zeros at its end; hours and minutes are always there. -/
def parts (time : TimeOfDay) : List Nat :=
  [time.hour, time.minute] ++
    (if time.microsecond ≠ 0 then [time.second, time.microsecond]
      else if time.second ≠ 0 then [time.second]
      else [])

end TimeOfDay

namespace Moment

/-- The text of an offset. -/
def offsetText (offset : Int) : String :=
  (if offset < 0 then "-" else "+") ++ padded 2 (offset.natAbs / 60) ++ ":" ++
    padded 2 (offset.natAbs % 60)

/-- The length of a day in seconds. -/
def daySeconds : Int := 86400

/-- An offset by its parts. A negative one counts forward from the day before. -/
def offsetParts (offset : Int) : String :=
  if offset = 0 then "datetime.timezone.utc"
  else
    let seconds := offset * 60
    "datetime.timezone(datetime.timedelta(" ++
      (if seconds < 0 then "days=-1, seconds=" ++ toString (daySeconds + seconds)
        else "seconds=" ++ toString seconds) ++ "))"

/-- A moment as people write it. -/
def text : Moment → String
  | date day => day.text
  | time clock => clock.text
  | dateTime day clock offset? =>
    day.text ++ " " ++ clock.text ++ (offset?.map offsetText).getD ""

/-- Numbers in a row. -/
def commaSeparated (parts : List Nat) : String := String.intercalate ", " (parts.map toString)

/-- A moment by its parts. -/
def quoted : Moment → String
  | date day => "datetime.date(" ++ commaSeparated day.parts ++ ")"
  | time clock => "datetime.time(" ++ commaSeparated clock.parts ++ ")"
  | dateTime day clock offset? =>
    "datetime.datetime(" ++ commaSeparated (day.parts ++ clock.parts) ++
      ((offset?.map fun offset => ", tzinfo=" ++ offsetParts offset).getD "") ++ ")"

end Moment

end SableFrontend.Toml
