import EdnLint.Text.Basic

/-!
# Dates and times

A moment is a day, a time of day, or both with or without an offset from universal
time. `Moment.text` writes it by itself, `Moment.detailed` as it stands inside a
list, where zero seconds are left out.
-/

namespace EdnLint

/-- A day of the calendar. -/
structure Date where
  year : Nat
  month : Nat
  day : Nat
  deriving DecidableEq, Repr

/-- A time of day, to the microsecond. -/
structure TimeOfDay where
  hour : Nat
  minute : Nat
  second : Nat
  micro : Nat
  deriving DecidableEq, Repr

/-- A day, a time of day, or both, with the offset from universal time in minutes
if one is given. -/
inductive Moment where
  | day (date : Date)
  | time (time : TimeOfDay)
  | instant (date : Date) (time : TimeOfDay) (offset : Option Int)
  deriving DecidableEq, Repr

/-- A number with zeros in front, up to a width. -/
def Text.padded (width n : Nat) : Text :=
  let digits := ofNat n
  zeros (width - digits.length) ++ digits

namespace Date

/-- Whether a year has the twenty-ninth of February. -/
def isLeap (year : Nat) : Bool :=
  year % 4 == 0 && (year % 100 != 0 || year % 400 == 0)

/-- How many days a month has. -/
def daysIn (year month : Nat) : Nat :=
  if month = 2 then (if isLeap year then 29 else 28)
  else if month = 4 || month = 6 || month = 9 || month = 11 then 30
  else 31

/-- Whether the calendar has the day; it starts with the year one. -/
def isValid (d : Date) : Bool :=
  0 < d.year && 0 < d.month && d.month ≤ 12 && 0 < d.day && d.day ≤ daysIn d.year d.month

/-- A day with dashes. -/
def text (d : Date) : Text :=
  Text.padded 4 d.year ++ "-" ++ Text.padded 2 d.month ++ "-" ++ Text.padded 2 d.day

/-- The parts of a day, largest first. -/
def parts (d : Date) : List Text := [Text.ofNat d.year, Text.ofNat d.month, Text.ofNat d.day]

end Date

namespace TimeOfDay

/-- A time of day with colons, and the microseconds if there are any. -/
def text (t : TimeOfDay) : Text :=
  let clock := Text.padded 2 t.hour ++ ":" ++ Text.padded 2 t.minute ++ ":"
    ++ Text.padded 2 t.second
  if t.micro = 0 then clock else clock ++ "." ++ Text.padded 6 t.micro

/-- The parts of a time of day, largest first, down to the last that is not zero or
to the minutes. -/
def parts (t : TimeOfDay) : List Text :=
  let clock := [Text.ofNat t.hour, Text.ofNat t.minute]
  if t.micro ≠ 0 then clock ++ [Text.ofNat t.second, Text.ofNat t.micro]
  else if t.second ≠ 0 then clock ++ [Text.ofNat t.second]
  else clock

end TimeOfDay

namespace Moment

/-- An offset in minutes as a sign, hours and minutes. -/
def offsetText (offset : Int) : Text :=
  let sign : Text := if offset < 0 then "-" else "+"
  sign ++ Text.padded 2 (offset.natAbs / 60) ++ ":" ++ Text.padded 2 (offset.natAbs % 60)

/-- A moment by itself. -/
def text : Moment → Text
  | .day d => d.text
  | .time t => t.text
  | .instant d t offset => d.text ++ " " ++ t.text ++ (offset.map offsetText).getD []

/-- An offset inside a list: whole days and the seconds above them. -/
def offsetDetailed (offset : Int) : Text :=
  if offset = 0 then "datetime.timezone.utc"
  else
    let days : Text := if offset < 0 then "days=-1, " else []
    let seconds := if offset < 0 then 86400 + offset * 60 else offset * 60
    ("datetime.timezone(datetime.timedelta(" : Text) ++ days ++ "seconds=" ++ Text.ofInt seconds
      ++ "))"

/-- A moment inside a list. -/
def detailed : Moment → Text
  | .day d => ("datetime.date(" : Text) ++ Text.join ", " d.parts ++ ")"
  | .time t => ("datetime.time(" : Text) ++ Text.join ", " t.parts ++ ")"
  | .instant d t offset =>
      let zone := offset.map fun o => ("tzinfo=" : Text) ++ offsetDetailed o
      ("datetime.datetime(" : Text) ++ Text.join ", " (d.parts ++ t.parts ++ zone.toList) ++ ")"

end Moment

end EdnLint
